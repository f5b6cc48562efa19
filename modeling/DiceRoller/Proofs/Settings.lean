/-
# What a default stands in for

Keys lead from value to value: a text into a map, a place into a text. Where all
of them lead on, the value at their end is found (`Settings.follow_eq_ok_iff`).
Where they do not, it matters what they have led to before. A map without the
next key lets a default stand in. A text that the next key does not fit does
not: the keys have gone astray (`Settings.astray_iff`). So with a default, keys
are looked up without a fault exactly if they do not go astray
(`Settings.lookup_of_default`), and the settings of the program have texts to go
astray in (`Settings.not_lookup_of_key_in_text`).

Key definitions: `Settings.Orderly`, `Settings.At`, `Settings.Entry`,
`Settings.Leads`, `Settings.Astray`.
Key theorems: `Settings.characterAt_eq_ok_iff`, `Settings.step_eq_ok_iff`,
`Settings.follow_eq_ok_iff`, `Settings.astray_iff`, `Settings.lookup_of_default`.
-/
import DiceRoller.Proofs.Steps
import DiceRoller.Settings
import Mathlib.Data.List.Basic

namespace DiceRoller
namespace Settings

/-! ### Trees of maps and texts -/

/-- A tree of maps with texts at the ends. The keys of a map differ from each
other, and no text is too long for its places to be counted. -/
inductive Orderly : Datum → Prop
  | text {s : String} (hlen : (s.toList.length : Int) ≤ placeLimit) : Orderly (.text s)
  | map {entries : List (String × Datum)} (hkeys : (entries.map Prod.fst).Nodup)
      (hvalues : ∀ e ∈ entries, Orderly e.2) : Orderly (.map entries)

theorem orderly_standard : Orderly standard := by
  have leaf : ∀ {key s : String}, (s.toList.length : Int) ≤ placeLimit →
      Orderly (.map [(key, .text s)]) := by
    intro key s hs
    refine .map (by simp) fun e he => ?_
    rw [List.mem_singleton.1 he]
    exact .text hs
  refine .map (by decide) fun e he => ?_
  rcases List.mem_cons.1 he with rfl | he
  · exact leaf (by decide)
  · rw [List.mem_singleton.1 he]
    exact leaf (by decide)

/-! ### Where keys lead -/

/-- The place that a key is; a truth value counts as a whole number. -/
def place? : Datum → Option Int
  | .number n => some n
  | .truth b => some (if b then 1 else 0)
  | _ => none

/-- Texts and places are keys. -/
def IsKey (key : Datum) : Prop := (∃ k, key = .text k) ∨ ∃ place, place? key = some place

/-- The character of a text at a place: counted from the front, from 0 up, or
from the end, from -1 down. -/
inductive At (s : String) : Int → Char → Prop
  | front {n : Nat} {c : Char} (h : s.toList[n]? = some c) : At s n c
  | back {n : Nat} {c : Char} (h : s.toList.reverse[n]? = some c) : At s (-(n + 1)) c

/-- What a key leads to from a value. -/
inductive Entry : Datum → Datum → Datum → Prop
  | value {entries : List (String × Datum)} {k : String} {d : Datum} (h : (k, d) ∈ entries) :
      Entry (.map entries) (.text k) d
  | character {s : String} {key : Datum} {place : Int} {c : Char} (hkey : place? key = some place)
      (h : At s place c) : Entry (.text s) key (.text c.toString)

/-- What keys lead to from a value, one after the other. -/
inductive Leads : Datum → List Datum → Datum → Prop
  | here {value : Datum} : Leads value [] value
  | onward {value key next found : Datum} {keys : List Datum} (h : Entry value key next)
      (hrest : Leads next keys found) : Leads value (key :: keys) found

/-- The keys lead to a text, and the next one does not lead on from there. -/
inductive Astray : Datum → List Datum → Prop
  | here {s : String} {key : Datum} {keys : List Datum} (h : ∀ next, ¬ Entry (.text s) key next) :
      Astray (.text s) (key :: keys)
  | onward {value key next : Datum} {keys : List Datum} (h : Entry value key next)
      (hrest : Astray next keys) : Astray value (key :: keys)

/-! ### One key -/

section Step

variable {s : String} {value key next : Datum} {entries : List (String × Datum)} {p : Problem}

theorem characterAt_front {n : Nat} (hn : (n : Int) < placeLimit) :
    characterAt s n = s.toList[n]?.elim (.error .outside) fun c => .ok (.text c.toString) := by
  have hnear : ¬ ((n : Int) < -placeLimit ∨ placeLimit ≤ n) := by
    unfold placeLimit at *
    omega
  have hpos : ¬ (n : Int) < 0 := by omega
  simp only [characterAt, if_neg hnear, if_neg hpos, Int.toNat_natCast]
  cases s.toList[n]? <;> rfl

theorem characterAt_back {n : Nat} (hn : (n : Int) < placeLimit) :
    characterAt s (-(n + 1)) =
      s.toList.reverse[n]?.elim (.error .outside) fun c => .ok (.text c.toString) := by
  have hnear : ¬ (-((n : Int) + 1) < -placeLimit ∨ placeLimit ≤ -((n : Int) + 1)) := by
    unfold placeLimit at *
    omega
  have hneg : -((n : Int) + 1) < 0 := by omega
  simp only [characterAt, if_neg hnear, if_pos hneg]
  by_cases hlen : n < s.toList.length
  · have hfront : ¬ -((n : Int) + 1) + s.toList.length < 0 := by omega
    have hplace : (-((n : Int) + 1) + s.toList.length).toNat = s.toList.length - 1 - n := by omega
    rw [if_neg hfront, hplace, List.getElem?_reverse hlen]
    cases s.toList[s.toList.length - 1 - n]? <;> rfl
  · have hbefore : -((n : Int) + 1) + s.toList.length < 0 := by omega
    rw [if_pos hbefore, List.getElem?_eq_none (by simpa using hlen)]
    rfl

theorem characterAt_cases (s : String) (place : Int) : characterAt s place = .error .tooFar ∨
    characterAt s place = .error .outside ∨
      ∃ c, At s place c ∧ characterAt s place = .ok (.text c.toString) := by
  by_cases hfar : place < -placeLimit ∨ placeLimit ≤ place
  · exact .inl (if_pos hfar)
  refine .inr ?_
  by_cases hneg : place < 0
  · obtain ⟨n, rfl⟩ : ∃ n : Nat, place = -((n : Int) + 1) := ⟨(-place - 1).toNat, by omega⟩
    rw [characterAt_back (by omega)]
    cases hc : s.toList.reverse[n]? with
    | none => exact .inl rfl
    | some c => exact .inr ⟨c, .back hc, rfl⟩
  · obtain ⟨n, rfl⟩ := Int.eq_ofNat_of_zero_le (Int.not_lt.1 hneg)
    rw [characterAt_front (by omega)]
    cases hc : s.toList[n]? with
    | none => exact .inl rfl
    | some c => exact .inr ⟨c, .front hc, rfl⟩

theorem characterAt_eq_ok_iff {place : Int} {d : Datum}
    (hlen : (s.toList.length : Int) ≤ placeLimit) :
    characterAt s place = .ok d ↔ ∃ c, At s place c ∧ d = .text c.toString := by
  constructor
  · intro h
    rcases characterAt_cases s place with hfar | houtside | ⟨c, hat, hc⟩
    · rw [hfar] at h; cases h
    · rw [houtside] at h; cases h
    · rw [hc] at h
      exact ⟨c, hat, (Except.ok.inj h).symm⟩
  · rintro ⟨c, hat, rfl⟩
    cases hat with
    | @front n _ h =>
      have hn : n < s.toList.length := (List.getElem?_eq_some_iff.1 h).1
      rw [characterAt_front (by omega), h]
      rfl
    | @back n _ h =>
      have hn : n < s.toList.length := by simpa using (List.getElem?_eq_some_iff.1 h).1
      rw [characterAt_back (by omega), h]
      rfl

theorem lookup_eq_some_iff_mem {k : String} (hkeys : (entries.map Prod.fst).Nodup) :
    entries.lookup k = some next ↔ (k, next) ∈ entries := by
  constructor
  · intro h
    obtain ⟨before, after, rfl, -⟩ := List.lookup_eq_some_iff.1 h
    simp
  · intro h
    obtain ⟨before, after, rfl⟩ := List.mem_iff_append.1 h
    refine List.lookup_eq_some_iff.2 ⟨before, after, rfl, fun e he => ?_⟩
    rw [List.map_append, List.map_cons, List.nodup_append] at hkeys
    exact bne_iff_ne.2 fun hk =>
      hkeys.2.2 e.1 (List.mem_map_of_mem he) k List.mem_cons_self hk.symm

/-- A key is followed exactly to where it leads. -/
theorem step_eq_ok_iff (hvalue : Orderly value) : step value key = .ok next ↔ Entry value key next := by
  cases hvalue with
  | @text s hlen =>
    have hplace : ∀ place, place? key = some place → step (.text s) key = characterAt s place := by
      intro place hkey
      cases key <;> cases hkey <;> rfl
    constructor
    · intro h
      cases hkey : place? key with
      | none =>
        cases key with
        | number _ => cases hkey
        | truth _ => cases hkey
        | _ => cases h
      | some place =>
        rw [hplace place hkey] at h
        obtain ⟨c, hat, rfl⟩ := (characterAt_eq_ok_iff hlen).1 h
        exact .character hkey hat
    · rintro (_ | ⟨hkey, hat⟩)
      rw [hplace _ hkey]
      exact (characterAt_eq_ok_iff hlen).2 ⟨_, hat, rfl⟩
  | @map entries hkeys hvalues =>
    constructor
    · intro h
      cases key with
      | text k =>
        cases hlookup : entries.lookup k with
        | none => rw [step, hlookup] at h; cases h
        | some d =>
          rw [step, hlookup] at h
          cases h
          exact .value ((lookup_eq_some_iff_mem hkeys).1 hlookup)
      | _ => cases h
    · rintro (hmem | _)
      rw [step, (lookup_eq_some_iff_mem hkeys).2 hmem]

theorem Entry.orderly (h : Entry value key next) (hvalue : Orderly value) : Orderly next := by
  cases h with
  | value hmem =>
    cases hvalue with
    | map _ hvalues => exact hvalues _ hmem
  | @character _ _ _ c _ _ =>
    refine .text ?_
    rw [Char.toString_eq_singleton, String.toList_singleton]
    exact (by decide : ((1 : Nat) : Int) ≤ placeLimit)

theorem isMissing_of_step_map (hkey : IsKey key) (h : step (.map entries) key = .error p) :
    p.isMissing = true := by
  rcases hkey with ⟨k, rfl⟩ | ⟨place, hplace⟩
  · cases hlookup : entries.lookup k with
    | none =>
      rw [step, hlookup] at h
      cases h
      rfl
    | some d => rw [step, hlookup] at h; cases h
  · cases key <;> cases hplace <;> cases h <;> rfl

theorem not_isMissing_of_step_text (h : step (.text s) key = .error p) : p.isMissing = false := by
  have hcharacter : ∀ place, characterAt s place = .error p → p.isMissing = false := by
    intro place h
    rcases characterAt_cases s place with hfar | houtside | ⟨c, -, hc⟩
    · rw [hfar] at h; cases h; rfl
    · rw [houtside] at h; cases h; rfl
    · rw [hc] at h; cases h
  cases key with
  | number n => exact hcharacter n h
  | truth b => exact hcharacter _ h
  | _ => cases h; rfl

end Step

/-! ### Keys one after the other -/

section Follow

variable {value default found : Datum} {keys : List Datum} {p : Problem}

/-- Keys are followed exactly to where they lead. -/
theorem follow_eq_ok_iff (hvalue : Orderly value) :
    follow value keys = .ok found ↔ Leads value keys found := by
  induction keys generalizing value with
  | nil =>
    constructor
    · intro h
      cases h
      exact .here
    · rintro ⟨⟩
      rfl
  | cons key keys ih =>
    rw [follow, exceptBind_eq_ok_iff]
    constructor
    · rintro ⟨next, hstep, hrest⟩
      have hentry := (step_eq_ok_iff hvalue).1 hstep
      exact .onward hentry ((ih (hentry.orderly hvalue)).1 hrest)
    · rintro (_ | ⟨hentry, hrest⟩)
      exact ⟨_, (step_eq_ok_iff hvalue).2 hentry, (ih (hentry.orderly hvalue)).2 hrest⟩

/-- Keys go astray exactly if following them fails where no default stands in. -/
theorem astray_iff (hvalue : Orderly value) (hkeys : ∀ key ∈ keys, IsKey key) :
    Astray value keys ↔ ∃ p, follow value keys = .error p ∧ p.isMissing = false := by
  induction keys generalizing value with
  | nil =>
    constructor
    · rintro ⟨⟩
    · rintro ⟨p, h, -⟩
      cases h
  | cons key keys ih =>
    have hkey := hkeys key List.mem_cons_self
    have hrest : ∀ k ∈ keys, IsKey k := fun k hk => hkeys k (List.mem_cons_of_mem _ hk)
    simp only [follow, exceptBind_eq_error_iff]
    constructor
    · intro hastray
      cases hastray with
      | @here s _ _ hnone =>
        cases hstep : step (.text s) key with
        | ok next => exact absurd ((step_eq_ok_iff hvalue).1 hstep) (hnone next)
        | error p => exact ⟨p, .inl rfl, not_isMissing_of_step_text hstep⟩
      | onward hentry hastray =>
        obtain ⟨p, hp, hmissing⟩ := (ih (hentry.orderly hvalue) hrest).1 hastray
        exact ⟨p, .inr ⟨_, (step_eq_ok_iff hvalue).2 hentry, hp⟩, hmissing⟩
    · rintro ⟨p, hstep | ⟨next, hstep, hp⟩, hmissing⟩
      · -- the key fails itself: not in a map, where it would only be missing
        cases hvalue with
        | @text s hlen =>
          refine .here fun next hentry => ?_
          rw [(step_eq_ok_iff (.text hlen)).2 hentry] at hstep
          cases hstep
        | map _ _ =>
          rw [isMissing_of_step_map hkey hstep] at hmissing
          cases hmissing
      · have hentry := (step_eq_ok_iff hvalue).1 hstep
        exact .onward hentry ((ih (hentry.orderly hvalue) hrest).2 ⟨p, hp, hmissing⟩)

theorem orDefault_of_missing (hdefault : default ≠ .nothing) (hp : p.isMissing = true) :
    orDefault default (.error p) = .ok default := by
  cases default with
  | nothing => exact absurd rfl hdefault
  | _ => simp only [orDefault, hp, if_true]

theorem orDefault_of_not_missing (hp : p.isMissing = false) :
    orDefault default (.error p) = .error p := by
  cases default <;> simp [orDefault, hp]

/-- **What a default stands in for.** With a default, nothing is wrong with
settings that are not there, and what the keys lead to is found. Otherwise there
is a fault if the keys go astray in a text, and only then: where they do not, and
lead nowhere, the default stands in. -/
theorem lookup_of_default {settings : Datum} (name : String) (hsettings : Orderly settings)
    (hkeys : ∀ key ∈ keys, IsKey key) (hdefault : default ≠ .nothing) :
    lookup (.error (.noFile name)) keys default = .ok default ∧
    (∀ found, Leads settings keys found → lookup (.ok settings) keys default = .ok found) ∧
    ((∃ d, lookup (.ok settings) keys default = .ok d) ↔ ¬ Astray settings keys) ∧
    (¬ Astray settings keys → (∀ found, ¬ Leads settings keys found) →
      lookup (.ok settings) keys default = .ok default) := by
  have hfollow : lookup (.ok settings) keys default = orDefault default (follow settings keys) := rfl
  rw [hfollow, astray_iff hsettings hkeys]
  simp only [← follow_eq_ok_iff hsettings]
  refine ⟨orDefault_of_missing hdefault rfl, ?_⟩
  cases follow settings keys with
  | ok d => simp [orDefault]
  | error p =>
    cases hp : p.isMissing with
    | true => simp [orDefault_of_missing hdefault hp, hp]
    | false => simp [orDefault_of_not_missing hp, hp]

/-- The last character of the separator in the settings of the program, and the
default without them. -/
theorem lookup_of_default_separator :
    let keys : List Datum := [.text "output", .text "separator", .number (-1)]
    Orderly standard ∧ (∀ key ∈ keys, IsKey key) ∧ Datum.text ", " ≠ .nothing ∧
      lookup (.error (.noFile "missing.yml")) keys (.text ", ") = .ok (.text ", ") ∧
      lookup (.ok standard) keys (.text ", ") = .ok (.text " ") := by
  intro keys
  have hkeys : ∀ key ∈ keys, IsKey key := by
    simp [keys, IsKey, place?]
  have hdefault : Datum.text ", " ≠ .nothing := nofun
  have hleads : Leads standard keys (.text " ") :=
    .onward (.value (List.mem_cons_of_mem _ List.mem_cons_self))
      (.onward (.value List.mem_cons_self)
        (.onward (.character rfl (At.back (n := 0) (c := ' ') (by decide))) .here))
  obtain ⟨hmissing, hfound, -⟩ := lookup_of_default "missing.yml" orderly_standard hkeys hdefault
  exact ⟨orderly_standard, hkeys, hdefault, hmissing, hfound _ hleads⟩

/-- A name and a place behind the end, where there is only a text: a fault, in
spite of the default. -/
theorem not_lookup_of_key_in_text :
    (∀ key ∈ ([.text "paths", .text "log_conf", .text "name", .text "output", .text "separator",
        .number 1] : List Datum), IsKey key) ∧
      (¬ ∃ d, lookup (.ok standard) [.text "paths", .text "log_conf", .text "name"]
        (.truth true) = .ok d) ∧
      ¬ ∃ d, lookup (.ok standard) [.text "output", .text "separator", .number 1]
        (.truth true) = .ok d := by
  have hfails : ∀ {keys : List Datum} {p : Problem},
      lookup (.ok standard) keys (.truth true) = .error p →
        ¬ ∃ d, lookup (.ok standard) keys (.truth true) = .ok d := by
    rintro keys p h ⟨d, hd⟩
    cases h.symm.trans hd
  have hkeys : ∀ key ∈ ([.text "paths", .text "log_conf", .text "name", .text "output",
      .text "separator", .number 1] : List Datum), IsKey key := by
    simp [IsKey, place?]
  exact ⟨hkeys, hfails (p := .notAPlace "str") rfl, hfails (p := .outside) rfl⟩

end Follow
end Settings
end DiceRoller
