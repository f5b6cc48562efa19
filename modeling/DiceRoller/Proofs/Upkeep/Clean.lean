/-
# What cleaning removes

Cleaning makes one command of the program and of all paths that it has found, and
has it split into words again. So, if the user agrees, one program is started at
most (`Chores.clean_of_agreed`), and the arguments after the ones that are always
there are the paths found exactly if each of these is bare
(`Chores.clean_removes_found`). A blank, a quote or a backslash in the name of a
file is enough to have something else removed, or nothing at all.

Key definitions: `Chores.always`, `Chores.found`.
Key theorems: `Chores.cleanCommand_eq`, `Chores.ne_empty_of_mem_found`,
`Chores.clean_removes_found`.
-/
import DiceRoller.Proofs.Text.Words
import DiceRoller.Upkeep.Chores

namespace DiceRoller

/-! ### Names that are not empty -/

theorem Path.add_ne_empty {path part : String} (h : part ≠ "") : add path part ≠ "" := by
  have happend : ∀ s : String, s ++ part ≠ "" := fun s hs =>
    h (String.append_eq_empty_iff.1 hs).2
  unfold add
  split
  · exact h
  split
  · exact happend path
  · exact happend (path ++ "/")

namespace Folder

variable {folder : Folder} {path pattern name : String}

/-- A pattern that does not describe the empty text finds no empty path. -/
theorem ne_empty_of_mem_find (hpattern : Wildcard.matches? pattern "" = false)
    (h : name ∈ folder.find path pattern) : name ≠ "" := by
  obtain ⟨p, -, hp⟩ := List.mem_flatMap.1 h
  obtain ⟨file, hfile, rfl⟩ := List.mem_map.1 hp
  refine Path.add_ne_empty ?_
  rintro rfl
  cases hpattern.symm.trans (List.mem_filter.1 hfile).2

theorem ne_empty_of_mem_glob (h : name ∈ folder.glob pattern)
    (hpattern : Wildcard.matches? pattern "" = false) : name ≠ "" := by
  have hmatches := (Bool.and_eq_true_iff.1 (List.mem_filter.1 h).2).2
  rintro rfl
  cases hpattern.symm.trans hmatches

end Folder

/-! ### Running a command -/

namespace Task

variable {w : Surroundings} {j : Journal} {command answer : String} {ws rest : List String}
  {p : Words.Problem}

theorem run_of_split (h : Words.split command = .ok ws) (hthere : " ".intercalate ws ∉ w.missing) :
    run w command j = .ok () { j with calls := j.calls ++ [.run ws j.cwd] } := by
  have hwords : words command j = .ok ws j := by
    rw [words, h]
    rfl
  have hrequire : require w ws = pure () := by
    rw [require, if_neg]
    simpa using hthere
  rw [run, bind_of_ok hwords, hrequire]
  rfl

theorem run_of_problem (h : Words.split command = .error p) :
    run w command j = .error (.badCommand p) j := by
  have hwords : words command j = .error (.badCommand p) j := by
    rw [words, h]
    rfl
  rw [run, bind_of_error hwords]

end Task

/-! ### Cleaning -/

namespace Chores

/-- The program that removes files, and the arguments that it always has. -/
def always : List String := ["rm", "-vrf", ".eggs", ".tox", "build", "dist"]

/-- The paths that cleaning finds, in order. -/
def found (cwd : String) (folder : Folder) : List String :=
  folder.find cwd "*.pyc" ++ (folder.glob "*.egg-info" ++ folder.glob "*.egg")

variable {w : Surroundings} {j : Journal} {argv : List String} {cwd path : String}
  {folder : Folder}

theorem cleanCommand_eq (cwd : String) (folder : Folder) : cleanCommand cwd folder =
    Words.joined [always, folder.find cwd "*.pyc",
      folder.glob "*.egg-info" ++ folder.glob "*.egg"] := by
  have halways : "rm -vrf .eggs .tox build dist " = " ".intercalate always ++ " " := by
    decide +kernel
  unfold cleanCommand
  rw [halways]
  simp only [Words.joined, List.map_cons, List.map_nil, String.intercalate_cons_cons,
    String.intercalate_singleton, String.append_assoc]

theorem ne_empty_of_mem_found (h : path ∈ found cwd folder) : path ≠ "" := by
  rcases List.mem_append.1 h with h | h
  · exact Folder.ne_empty_of_mem_find (by decide) h
  rcases List.mem_append.1 h with h | h
  · exact Folder.ne_empty_of_mem_glob h (by decide)
  · exact Folder.ne_empty_of_mem_glob h (by decide)

theorem always_bare : ∀ w ∈ always, Words.Bare w := by decide

theorem always_ne_empty : ∀ w ∈ always, w ≠ "" := by decide

theorem split_cleanCommand_eq_ok_iff : Words.split (cleanCommand cwd folder) =
    .ok (always ++ found cwd folder) ↔ ∀ path ∈ found cwd folder, Words.Bare path := by
  have hflatten : [always, folder.find cwd "*.pyc",
      folder.glob "*.egg-info" ++ folder.glob "*.egg"].flatten = always ++ found cwd folder := by
    simp [found]
  have hne : ∀ path ∈ always ++ found cwd folder, path ≠ "" :=
    List.forall_mem_append.2 ⟨always_ne_empty, fun path => ne_empty_of_mem_found⟩
  rw [← hflatten] at hne
  rw [cleanCommand_eq, ← hflatten, Words.split_joined_eq_ok_iff hne, hflatten,
    List.forall_mem_append]
  exact and_iff_right always_bare

/-- However the paths are split, the words that are always there come first. -/
theorem exists_of_split_cleanCommand {ws : List String}
    (h : Words.split (cleanCommand cwd folder) = .ok ws) : ∃ args, ws = always ++ args := by
  rw [cleanCommand_eq, Words.split_joined_cons always_bare always_ne_empty] at h
  obtain ⟨args, -, rfl⟩ := Words.map_eq_ok_iff.1 h
  exact ⟨args, rfl⟩

/-- Yes is assumed, or the first answer agrees. -/
def Agreed (argv : List String) (j : Journal) : Prop :=
  yesFlag ∈ argv ∨ ∃ answer rest, j.answers = answer :: rest ∧ Task.agrees answer = true

theorem ask_of_agreed (hyes : w.assumeYes = (splitYes argv).1) (h : Agreed argv j) :
    ∃ answer j₁, Task.ask w prompt j = .ok answer j₁ ∧ Task.agrees answer = true ∧
      j₁.calls = j.calls ∧ j₁.cwd = j.cwd := by
  cases hassume : w.assumeYes with
  | true =>
    refine ⟨"yes", j, ?_, by decide +kernel, rfl, rfl⟩
    rw [Task.ask, hassume]
    rfl
  | false =>
    rw [hassume] at hyes
    rcases h with hmem | ⟨answer, rest, hanswers, hagrees⟩
    · rw [splitYes, List.contains_iff_mem.2 hmem] at hyes
      cases hyes
    · refine ⟨answer, { j with prompts := j.prompts ++ [prompt], answers := rest }, ?_, hagrees,
        rfl, rfl⟩
      rw [Task.ask, hassume, if_neg Bool.false_ne_true]
      simp only [hanswers]

theorem clean_of_agreed (hyes : w.assumeYes = (splitYes argv).1) (h : Agreed argv j) :
    ∃ j₁, j₁.calls = j.calls ∧ j₁.cwd = j.cwd ∧
      clean w j = Task.run w (cleanCommand j.cwd w.folder) j₁ := by
  let printed : Journal :=
    { j with stdout := j.stdout ++ ("Executing: " ++ cleanCommand j.cwd w.folder) ++ "\n" }
  obtain ⟨answer, j₁, hask, hagrees, hcalls, hcwd⟩ := ask_of_agreed (j := printed) hyes h
  refine ⟨j₁, hcalls, hcwd, ?_⟩
  have hprint : Task.print ("Executing: " ++ cleanCommand j.cwd w.folder) j = .ok () printed := rfl
  have hdir : Task.cwd j = .ok j.cwd j := rfl
  rw [clean, bind_of_ok hdir, bind_of_ok hprint, bind_of_ok hask, if_pos hagrees]

/-- **What cleaning removes.** Once the user has agreed, and if the program that
removes files is there, cleaning runs it once with the paths found and succeeds,
exactly if all these paths are bare. In any case it runs nothing else: either that
program, with some arguments after those that are always there, or nothing at all
if the command cannot be split into words. -/
theorem clean_removes_found (w : Surroundings) (j : Journal) (argv : List String)
    (hyes : w.assumeYes = (splitYes argv).1) (hagreed : Agreed argv j)
    (hthere : ∀ args, " ".intercalate ("rm" :: args) ∉ w.missing) :
    ((∃ j', clean w j = .ok () j' ∧
        j'.calls = j.calls ++ [.run (always ++ found j.cwd w.folder) j.cwd]) ↔
      ∀ path ∈ found j.cwd w.folder, Words.Bare path) ∧
    ((∃ args j', clean w j = .ok () j' ∧
        j'.calls = j.calls ++ [.run (always ++ args) j.cwd]) ∨
      ∃ p j', clean w j = .error (.badCommand p) j' ∧ j'.calls = j.calls) := by
  obtain ⟨j₁, hcalls, hcwd, hclean⟩ := clean_of_agreed hyes hagreed
  rw [← split_cleanCommand_eq_ok_iff]
  cases hsplit : Words.split (cleanCommand j.cwd w.folder) with
  | error p =>
    rw [Task.run_of_problem hsplit] at hclean
    refine ⟨⟨?_, nofun⟩, .inr ⟨p, j₁, hclean, hcalls⟩⟩
    rintro ⟨j', hok, -⟩
    cases hok.symm.trans hclean
  | ok ws =>
    obtain ⟨args, rfl⟩ := exists_of_split_cleanCommand hsplit
    rw [Task.run_of_split hsplit (hthere _), hcalls, hcwd] at hclean
    refine ⟨⟨?_, fun hfound => ?_⟩, .inl ⟨args, _, hclean, rfl⟩⟩
    · rintro ⟨j', hok, hrun⟩
      cases hok.symm.trans hclean
      simpa using hrun
    · rw [Except.ok.inj hfound] at hclean
      exact ⟨_, hclean, rfl⟩

/-- Compiled files at two places and a packed package, among other files, and yes
is assumed. -/
theorem clean_removes_found_three :
    let w : Surroundings :=
      { root := "/p", temp := "/tmp", assumeYes := true,
        folder := .mk ["a.egg", "a.py", "a.pyc"] [("d", .mk ["b.pyc"] [])] }
    let j : Journal := { cwd := "/p" }
    w.assumeYes = (splitYes ["clean", "--yes"]).1 ∧ Agreed ["clean", "--yes"] j ∧
      (∀ args, " ".intercalate ("rm" :: args) ∉ w.missing) ∧
      ∃ j', clean w j = .ok () j' ∧
        j'.calls = [.run (always ++ ["/p/a.pyc", "/p/d/b.pyc", "a.egg"]) "/p"] := by
  intro w j
  have hyes : w.assumeYes = (splitYes ["clean", "--yes"]).1 := by decide
  have hagreed : Agreed ["clean", "--yes"] j := .inl (by decide)
  have hthere : ∀ args, " ".intercalate ("rm" :: args) ∉ w.missing := fun _ => List.not_mem_nil
  have hfound : found j.cwd w.folder = ["/p/a.pyc", "/p/d/b.pyc", "a.egg"] := by decide +kernel
  have hbare : ∀ path ∈ found j.cwd w.folder, Words.Bare path := by
    rw [hfound]
    decide +kernel
  obtain ⟨j', hclean, hcalls⟩ := (clean_removes_found w j _ hyes hagreed hthere).1.2 hbare
  rw [hfound] at hcalls
  exact ⟨hyes, hagreed, hthere, j', hclean, hcalls⟩

/-- A compiled file with a blank in its name is found, and the user agrees. Two
other paths are removed instead of it. -/
theorem not_clean_removes_of_blank :
    let w : Surroundings := { root := "/p", temp := "/tmp", folder := .mk ["a b.pyc"] [] }
    let j : Journal := { cwd := "/p", answers := ["y"] }
    w.assumeYes = (splitYes []).1 ∧ Agreed [] j ∧ found j.cwd w.folder = ["/p/a b.pyc"] ∧
      (∃ j', clean w j = .ok () j' ∧
        j'.calls = [.run (always ++ ["/p/a", "b.pyc"]) "/p"]) ∧
      ¬ ∃ j', clean w j = .ok () j' ∧
        j'.calls = j.calls ++ [.run (always ++ found j.cwd w.folder) j.cwd] := by
  intro w j
  have hyes : w.assumeYes = (splitYes []).1 := by decide
  have hagreed : Agreed [] j := .inr ⟨"y", [], rfl, by decide +kernel⟩
  have hfound : found j.cwd w.folder = ["/p/a b.pyc"] := by decide +kernel
  have hsplit : Words.split (cleanCommand j.cwd w.folder) = .ok (always ++ ["/p/a", "b.pyc"]) := by
    decide +kernel
  obtain ⟨j₁, hcalls, hcwd, hclean⟩ := clean_of_agreed hyes hagreed
  rw [Task.run_of_split hsplit List.not_mem_nil, hcalls, hcwd] at hclean
  refine ⟨hyes, hagreed, hfound, ⟨_, hclean, rfl⟩, ?_⟩
  rintro ⟨j', hok, hrun⟩
  cases hok.symm.trans hclean
  rw [hfound] at hrun
  obtain ⟨hargs, -⟩ := Call.run.inj (List.cons.inj (List.append_cancel_left hrun)).1
  exact absurd hargs (by decide)

end Chores
end DiceRoller
