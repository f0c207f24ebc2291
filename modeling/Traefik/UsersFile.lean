import Traefik.Go
import Mathlib.Logic.Relation

/-!
# Users files

`getLinesFromFile` reads a users file, splits it on `"\n"`, trims every line and drops the
blank ones. What it returns depends only on the trimmed non-blank lines of the file: carriage
returns, blank lines and white space around a line are invisible to it.
-/

namespace Traefik

/-- One pass of `getLinesFromFile`'s loop: the trimmed line, kept when it is not blank. -/
def trimmedLine (rawLine : GoString) : Option GoString :=
  let line := trimSpace rawLine
  if line = [] then none else some line

/-- The lines `getLinesFromFile` returns for the file content `dat`. -/
def fileLines (dat : GoString) : List GoString := (split dat '\n').filterMap trimmedLine

/-- `getLinesFromFile`: `ioutil.ReadFile`, then split on `"\n"`, trim, filter out blanks. -/
def getLinesFromFile (readFile : GoString → Except GoError GoString) (filename : GoString) :
    Except GoError (List GoString) := do
  let dat ← readFile filename
  pure (fileLines dat)

@[simp] lemma fileLines_nil : fileLines [] = [] := rfl

lemma getLinesFromFile_of_ok {readFile : GoString → Except GoError GoString} {filename dat : GoString}
    (h : readFile filename = .ok dat) : getLinesFromFile readFile filename = .ok (fileLines dat) := by
  simp [getLinesFromFile, h, bind, Except.bind, pure, Except.pure]

lemma fileLines_append_newline (a b : GoString) :
    fileLines (a ++ '\n' :: b) = fileLines a ++ fileLines b := by
  simp [fileLines, split_append_sep]

lemma fileLines_of_not_mem {p : GoString} (h : '\n' ∉ p) :
    fileLines p = (trimmedLine p).toList := by
  cases hp : trimmedLine p <;> simp [fileLines, split_of_not_mem h, hp]

lemma fileLines_cons_space {c : Char} (h : isSpace c) (s : GoString) :
    fileLines (c :: s) = fileLines s := by
  by_cases hc : c = '\n'
  · subst hc
    simpa using fileLines_append_newline [] s
  · obtain ⟨p, ps, hps⟩ := List.exists_cons_of_ne_nil (split_ne_nil s '\n')
    simp [fileLines, split_cons, hc, hps, List.filterMap_cons, trimmedLine, trimSpace_cons_space h]

/-- White space at the end of a line, seen from the start `p` of that line. -/
lemma fileLines_append_concat_space {c : Char} (h : isSpace c) :
    ∀ (t p : GoString), '\n' ∉ p → fileLines (p ++ t ++ [c]) = fileLines (p ++ t)
  | [], p, hp => by
    by_cases hc : c = '\n'
    · subst hc
      simpa using fileLines_append_newline p []
    · have hpc : '\n' ∉ p ++ [c] := by simp [hp, Ne.symm hc]
      simp [fileLines_of_not_mem hp, fileLines_of_not_mem hpc, trimmedLine,
        trimSpace_concat_space h]
  | x :: t, p, hp => by
    by_cases hx : x = '\n'
    · subst hx
      have ih := fileLines_append_concat_space h t [] (List.not_mem_nil _)
      simp only [List.nil_append] at ih
      simp [fileLines_append_newline, ih]
    · have ih := fileLines_append_concat_space h t (p ++ [x]) (by simp [hp, Ne.symm hx])
      simpa using ih

lemma fileLines_concat_space {c : Char} (h : isSpace c) (s : GoString) :
    fileLines (s ++ [c]) = fileLines s := by
  simpa using fileLines_append_concat_space h s [] (List.not_mem_nil _)

lemma fileLines_spaces_append {w : GoString} (hw : ∀ c ∈ w, isSpace c) (s : GoString) :
    fileLines (w ++ s) = fileLines s := by
  induction w with
  | nil => rfl
  | cons c w ih =>
    rw [List.cons_append, fileLines_cons_space (hw c (List.mem_cons_self c w)),
      ih (fun x hx => hw x (List.mem_cons_of_mem c hx))]

lemma fileLines_append_spaces {w : GoString} (hw : ∀ c ∈ w, isSpace c) (s : GoString) :
    fileLines (s ++ w) = fileLines s := by
  induction w generalizing s with
  | nil => simp
  | cons c w ih =>
    rw [← List.singleton_append, ← List.append_assoc,
      ih (fun x hx => hw x (List.mem_cons_of_mem c hx)),
      fileLines_concat_space (hw c (List.mem_cons_self c w))]

lemma fileLines_spaces {w : GoString} (hw : ∀ c ∈ w, isSpace c) : fileLines w = [] := by
  simpa using fileLines_append_spaces hw []

/-- The file is its lines joined by `"\n"`, and `getLinesFromFile` reads each on its own. -/
lemma fileLines_intercalate : ∀ ls : List GoString,
    fileLines (['\n'].intercalate ls) = ls.flatMap fileLines
  | [] => rfl
  | [l] => by simp [List.intercalate]
  | l :: l' :: ls => by
    have ih := fileLines_intercalate (l' :: ls)
    simp only [List.intercalate, List.intersperse_cons_cons] at ih ⊢
    simp [fileLines_append_newline, ih]

/-- The file with every `"\n"` replaced by `"\r\n"`. -/
def crlf (s : GoString) : GoString := s.flatMap fun c => if c = '\n' then ['\r', '\n'] else [c]

/-- `crlf` seen from the start `p` of the line it begins in. -/
lemma fileLines_append_crlf : ∀ (t p : GoString), '\n' ∉ p →
    fileLines (p ++ crlf t) = fileLines (p ++ t)
  | [], _, _ => by simp [crlf]
  | x :: t, p, hp => by
    by_cases hx : x = '\n'
    · subst hx
      have ih := fileLines_append_crlf t [] (List.not_mem_nil _)
      have hcr : p ++ crlf ('\n' :: t) = (p ++ ['\r']) ++ '\n' :: crlf t := by simp [crlf]
      simp only [List.nil_append] at ih
      rw [hcr, fileLines_append_newline, fileLines_append_newline, ih,
        fileLines_concat_space isSpace_cr]
    · have ih := fileLines_append_crlf t (p ++ [x]) (by simp [hp, Ne.symm hx])
      simpa [crlf, hx] using ih

lemma fileLines_crlf (s : GoString) : fileLines (crlf s) = fileLines s := by
  simpa using fileLines_append_crlf s [] (List.not_mem_nil _)

/-- Rewrites of a users file that keep its trimmed non-blank lines: every
`"\n"` made `"\r\n"`, a white-space-only line inserted between two lines (or first or
last), and a line padded with white space on either side. Every file is the join of its
`split` (`List.intercalate_splitOn`), so the last two reach every line of it. -/
inductive BlankVariant : GoString → GoString → Prop
  | crlf (f : GoString) : BlankVariant f (crlf f)
  | blankLine (xs ys : List GoString) (w : GoString) (hw : ∀ c ∈ w, isSpace c) :
      BlankVariant (['\n'].intercalate (xs ++ ys)) (['\n'].intercalate (xs ++ w :: ys))
  | pad (xs ys : List GoString) (line pre post : GoString) (hpre : ∀ c ∈ pre, isSpace c)
      (hpost : ∀ c ∈ post, isSpace c) :
      BlankVariant (['\n'].intercalate (xs ++ line :: ys))
        (['\n'].intercalate (xs ++ (pre ++ line ++ post) :: ys))

lemma fileLines_blankVariant {f g : GoString} (h : BlankVariant f g) :
    fileLines g = fileLines f := by
  cases h with
  | crlf f => exact fileLines_crlf f
  | blankLine xs ys w hw => simp [fileLines_intercalate, fileLines_spaces hw]
  | pad xs ys line pre post hpre hpost =>
    simp [fileLines_intercalate, fileLines_spaces_append hpre, fileLines_append_spaces hpost]

lemma fileLines_blankVariants {f g : GoString} (h : Relation.ReflTransGen BlankVariant f g) :
    fileLines g = fileLines f := by
  induction h with
  | refl => rfl
  | tail _ hstep ih => rw [fileLines_blankVariant hstep, ih]

lemma getLinesFromFile_blankVariants {readFile readFile' : GoString → Except GoError GoString}
    {filename f g : GoString} (hf : readFile filename = .ok f) (hg : readFile' filename = .ok g)
    (h : Relation.ReflTransGen BlankVariant f g) :
    getLinesFromFile readFile' filename = getLinesFromFile readFile filename := by
  simp [getLinesFromFile, hf, hg, fileLines_blankVariants h]

/-- A line as `getLinesFromFile` returns it: not blank, without `"\n"`, already trimmed. -/
def UsersLine (l : GoString) : Prop := l ≠ [] ∧ '\n' ∉ l ∧ trimSpace l = l

instance : DecidablePred UsersLine := fun _ => inferInstanceAs (Decidable (_ ∧ _ ∧ _))

example : UsersLine "alice:x".toList ∧ ¬UsersLine "alice:x\r".toList := by decide

lemma usersLine_of_mem_fileLines {dat l : GoString} (h : l ∈ fileLines dat) : UsersLine l := by
  obtain ⟨raw, hraw, hl⟩ := List.mem_filterMap.mp h
  have hn := not_mem_of_mem_split dat '\n' raw hraw
  simp only [trimmedLine] at hl
  split at hl <;> cases hl
  exact ⟨‹_›, fun h => hn (mem_of_mem_trimSpace h), trimSpace_idem raw⟩

lemma fileLines_of_usersLine {l : GoString} (h : UsersLine l) : fileLines l = [l] := by
  simp [fileLines_of_not_mem h.2.1, trimmedLine, h.2.2, h.1]

/-- A file written as lines joined by `"\n"` reads back to them exactly when each is a
`UsersLine`. -/
lemma fileLines_intercalate_eq_iff (ls : List GoString) :
    fileLines (['\n'].intercalate ls) = ls ↔ ∀ l ∈ ls, UsersLine l := by
  refine ⟨fun h l hl => usersLine_of_mem_fileLines (h.symm ▸ hl), fun h => ?_⟩
  rw [fileLines_intercalate, List.flatMap_congr fun l hl => fileLines_of_usersLine (h l hl),
    List.flatMap_singleton']

/-- Every line `getLinesFromFile` returns is a `UsersLine`, and a file that joins lines by
`"\n"` reads back to those very lines exactly when each of them is one. -/
theorem getLinesFromFile_usersLines (readFile : GoString → Except GoError GoString)
    (filename : GoString) :
    (∀ lines, getLinesFromFile readFile filename = .ok lines → ∀ l ∈ lines, UsersLine l) ∧
    ∀ ls, readFile filename = .ok (['\n'].intercalate ls) →
      (getLinesFromFile readFile filename = .ok ls ↔ ∀ l ∈ ls, UsersLine l) := by
  refine ⟨fun lines h => ?_, fun ls h => ?_⟩
  · obtain ⟨dat, -, rfl⟩ := bind_pure_eq_ok.mp h
    exact fun l hl => usersLine_of_mem_fileLines hl
  · rw [getLinesFromFile_of_ok h, Except.ok.injEq, fileLines_intercalate_eq_iff]

end Traefik
