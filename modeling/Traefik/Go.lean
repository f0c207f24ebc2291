import Mathlib.Data.List.Basic
import Mathlib.Data.List.DropRight

/-!
# Go strings and maps

A Go `string` is modelled by the runes it decodes to, an `error` by its text and a map by
its lookup function. `split` is `strings.Split` for the one-rune separators the middlewares
pass (`":"` and `"\n"`), `trimSpace` is `strings.TrimSpace` over `unicode.IsSpace`.
-/

namespace Traefik

/-- A Go `string`, as the list of runes it decodes to. -/
abbrev GoString := List Char

/-- A Go `error`, by its `Error()` text. -/
abbrev GoError := GoString

/-- Go's `m[k] = v` on a map read through lookups. -/
def put {β : Type} (m : GoString → Option β) (k : GoString) (v : β) : GoString → Option β :=
  fun a => if a = k then some v else m a

@[simp] lemma put_self {β : Type} (m : GoString → Option β) (k : GoString) (v : β) :
    put m k v k = some v := by
  simp [put]

lemma put_of_ne {β : Type} (m : GoString → Option β) {k a : GoString} (v : β) (h : a ≠ k) :
    put m k v a = m a := by
  simp [put, h]

lemma put_eq_some {β : Type} {m : GoString → Option β} {k a : GoString} {v s : β}
    (h : put m k v a = some s) : a = k ∧ s = v ∨ m a = some s := by
  by_cases ha : a = k
  · simp_all [put]
  · exact .inr (by simpa [put, ha] using h)

/-- A Go call `v, err := x` followed by a `return f(v), nil`. -/
lemma bind_pure_eq_ok {ε α β : Type} {x : Except ε α} {f : α → β} {b : β} :
    (do let a ← x; pure (f a)) = (.ok b : Except ε β) ↔ ∃ a, x = .ok a ∧ f a = b := by
  cases x <;> simp [bind, Except.bind, pure, Except.pure]

lemma exists_bind_pure_eq_ok {ε α β : Type} {x : Except ε α} {f : α → β} :
    (∃ b, (do let a ← x; pure (f a)) = (.ok b : Except ε β)) ↔ ∃ a, x = .ok a := by
  simp only [bind_pure_eq_ok]
  exact ⟨fun ⟨_, a, h, _⟩ => ⟨a, h⟩, fun ⟨a, h⟩ => ⟨_, a, h, rfl⟩⟩

/-- `unicode.IsSpace`: the Latin-1 spaces, and above Latin-1 the `White_Space` runes. -/
def isSpace (c : Char) : Bool :=
  if c.toNat ≤ 0xFF then
    c == '\t' || c == '\n' || c == '\x0b' || c == '\x0c' || c == '\r' || c == ' ' ||
      c.toNat == 0x85 || c.toNat == 0xA0
  else
    c.toNat == 0x1680 || (0x2000 ≤ c.toNat && c.toNat ≤ 0x200A) || c.toNat == 0x2028 ||
      c.toNat == 0x2029 || c.toNat == 0x202F || c.toNat == 0x205F || c.toNat == 0x3000

/-- `strings.TrimSpace`, that is `TrimRightFunc(TrimLeftFunc(s, IsSpace), IsSpace)`. -/
def trimSpace (s : GoString) : GoString := (s.dropWhile isSpace).rdropWhile isSpace

/-- `strings.Split(s, sep)` for a one-rune `sep`: the pieces between the separators. -/
def split (s : GoString) (sep : Char) : List GoString := s.splitOn sep

@[simp] lemma isSpace_newline : isSpace '\n' = true := rfl

@[simp] lemma isSpace_cr : isSpace '\r' = true := rfl

@[simp] lemma split_nil (sep : Char) : split [] sep = [[]] := rfl

lemma split_cons (x sep : Char) (s : GoString) :
    split (x :: s) sep =
      if x = sep then [] :: split s sep else (split s sep).modifyHead (x :: ·) := by
  simp [split, List.splitOn, List.splitOnP_cons]

lemma split_ne_nil (s : GoString) (sep : Char) : split s sep ≠ [] :=
  List.splitOnP_ne_nil _ _

lemma split_of_not_mem {s : GoString} {sep : Char} (h : sep ∉ s) : split s sep = [s] :=
  List.splitOnP_eq_single _ _ (fun _ hx hsep => h (eq_of_beq hsep ▸ hx))

/-- A separator cuts the string in two, and `split` cuts each side on its own. -/
lemma split_append_sep (a b : GoString) (sep : Char) :
    split (a ++ sep :: b) sep = split a sep ++ split b sep := by
  induction a with
  | nil => simp [split_cons]
  | cons x a ih =>
    obtain ⟨p, ps, hps⟩ := List.exists_cons_of_ne_nil (split_ne_nil a sep)
    by_cases hx : x = sep <;> simp [split_cons, hx, ih, hps]

lemma not_mem_of_mem_split (s : GoString) (sep : Char) : ∀ p ∈ split s sep, sep ∉ p := by
  induction s with
  | nil => simp
  | cons x s ih =>
    obtain ⟨q, qs, hqs⟩ := List.exists_cons_of_ne_nil (split_ne_nil s sep)
    rw [hqs] at ih
    by_cases hx : x = sep
    · simp_all [split_cons]
    · simp_all [split_cons, Ne.symm hx]

lemma trimSpace_cons_space {c : Char} (h : isSpace c) (s : GoString) :
    trimSpace (c :: s) = trimSpace s := by
  simp [trimSpace, h]

lemma trimSpace_concat_space {c : Char} (h : isSpace c) (s : GoString) :
    trimSpace (s ++ [c]) = trimSpace s := by
  unfold trimSpace
  rw [List.dropWhile_append]
  split
  · next hs =>
    rw [List.isEmpty_iff.mp hs, List.dropWhile_cons_of_pos h]
    rfl
  · exact List.rdropWhile_concat_pos _ _ _ h

lemma rdropWhile_cons_of_not {p : Char → Bool} {x : Char} (h : ¬p x) (xs : List Char) :
    (x :: xs).rdropWhile p = x :: xs.rdropWhile p := by
  induction xs using List.reverseRecOn with
  | nil => simp [List.rdropWhile_singleton, h]
  | append_singleton xs y ih =>
    by_cases hy : p y
    · rw [← List.cons_append, List.rdropWhile_concat_pos _ _ _ hy,
        List.rdropWhile_concat_pos _ _ _ hy, ih]
    · rw [← List.cons_append, List.rdropWhile_concat_neg _ _ _ hy,
        List.rdropWhile_concat_neg _ _ _ hy, List.cons_append]

/-- A trimmed string starts with a rune that is not a space, so trimming it again keeps it. -/
lemma trimSpace_idem (s : GoString) : trimSpace (trimSpace s) = trimSpace s := by
  unfold trimSpace
  cases ht : s.dropWhile isSpace with
  | nil => rfl
  | cons x xs =>
    have hx : ¬isSpace x := by
      simpa [ht] using List.head_dropWhile_not isSpace s (by simp [ht])
    rw [rdropWhile_cons_of_not hx, List.dropWhile_cons_of_neg hx, ← rdropWhile_cons_of_not hx,
      List.rdropWhile_idempotent]

lemma mem_of_mem_trimSpace {c : Char} {s : GoString} (h : c ∈ trimSpace s) : c ∈ s :=
  (List.dropWhile_suffix isSpace).subset ((List.rdropWhile_prefix _ _).subset h)

end Traefik
