import Traefik.Go

/-!
# HTTP headers

`http.Header` maps a header name to its values. net/http files every header it reads from
the wire under `textproto.CanonicalMIMEHeaderKey` of its name, while an assignment
`h[k] = v` through the map files the values under `k` exactly as written. Header lines are
taken already cut at their first colon into name and value, and the names are read as
`textproto.ReadMIMEHeader` reads them from Go 1.13.1 on: no space before the colon is dropped
(earlier versions dropped them), a name with a byte outside the token set is filed as it is,
and a line with an empty name is skipped. Later net/http servers refuse a request with such
names before any handler runs; that check, line folding and the white space around a value
are not modelled.
-/

namespace Traefik

/-- `http.Header`, a `map[string][]string`. -/
abbrev Header := GoString → Option (List GoString)

/-- `validHeaderFieldByte`: the token characters of RFC 7230. -/
def validHeaderFieldByte (c : Char) : Bool :=
  c.isAlphanum || "!#$%&*+-.^_|~".toList.contains c || c == '\x27' || c == '\x60'

/-- One byte of `canonicalMIMEHeaderKey`'s loop. -/
def canonicalChar (upper : Bool) (c : Char) : Char :=
  if upper && c.isLower then c.toUpper else if !upper && c.isUpper then c.toLower else c

/-- The loop of `canonicalMIMEHeaderKey`: a letter is upper case first and after `-`, and
lower case elsewhere. -/
def canonicalize : Bool → GoString → GoString
  | _, [] => []
  | upper, c :: cs =>
    let c := canonicalChar upper c
    c :: canonicalize (c == '-') cs

/-- `textproto.CanonicalMIMEHeaderKey`; a key with a byte outside the token set is left as
it is. -/
def canonicalMIMEHeaderKey (s : GoString) : GoString :=
  if s.all validHeaderFieldByte then canonicalize true s else s

example : canonicalMIMEHeaderKey "x-webauth-USER".toList = "X-Webauth-User".toList := by decide

/-- `Header.Add`: the value is appended under the canonical form of the key. -/
def Header.add (h : Header) (key value : GoString) : Header :=
  let key := canonicalMIMEHeaderKey key
  put h key ((h key).getD [] ++ [value])

/-- The header map `textproto.ReadMIMEHeader` builds from the header lines, each already cut
at its first colon; a line with an empty key is skipped. -/
def readMIMEHeader (fields : List (GoString × GoString)) : Header :=
  fields.foldl (fun h f => if canonicalMIMEHeaderKey f.1 = [] then h else h.add f.1 f.2)
    fun _ => none

/-- A header map as net/http hands it to a handler: every key is in canonical form. -/
def CanonicallyKeyed (h : Header) : Prop :=
  ∀ k vs, h k = some vs → canonicalMIMEHeaderKey k = k

lemma canonicallyKeyed_empty : CanonicallyKeyed fun _ => none := fun _ _ h => by cases h

lemma canonicallyKeyed_put {h : Header} {k : GoString} (vs : List GoString)
    (hh : CanonicallyKeyed h) (hk : canonicalMIMEHeaderKey k = k) :
    CanonicallyKeyed (put h k vs) := by
  intro a ws ha
  by_cases hak : a = k
  · rw [hak, hk]
  · exact hh a ws (by rwa [put_of_ne _ _ hak] at ha)

lemma isUpper_iff {c : Char} : c.isUpper ↔ 65 ≤ c.toNat ∧ c.toNat ≤ 90 := by
  simp [Char.isUpper, UInt32.le_def, BitVec.le_def]
  rfl

lemma isLower_iff {c : Char} : c.isLower ↔ 97 ≤ c.toNat ∧ c.toNat ≤ 122 := by
  simp [Char.isLower, UInt32.le_def, BitVec.le_def]
  rfl

lemma isLetter_ofNat {c : Char} (h : c.isLower ∨ c.isUpper) :
    ∃ n : Fin 26, c = Char.ofNat (97 + n) ∨ c = Char.ofNat (65 + n) := by
  rcases h with h | h
  · have := isLower_iff.mp h
    refine ⟨⟨c.toNat - 97, by omega⟩, .inl ?_⟩
    rw [show 97 + (c.toNat - 97) = c.toNat by omega, Char.ofNat_toNat]
  · have := isUpper_iff.mp h
    refine ⟨⟨c.toNat - 65, by omega⟩, .inr ?_⟩
    rw [show 65 + (c.toNat - 65) = c.toNat by omega, Char.ofNat_toNat]

/-- Changing the case of a letter twice changes it once; the 52 ASCII letters are checked
one by one. -/
lemma canonicalChar_idem (b : Bool) (c : Char) :
    canonicalChar b (canonicalChar b c) = canonicalChar b c := by
  by_cases h : c.isLower ∨ c.isUpper
  · have letters : ∀ n : Fin 26, ∀ b,
        canonicalChar b (canonicalChar b (Char.ofNat (97 + n))) =
          canonicalChar b (Char.ofNat (97 + n)) ∧
        canonicalChar b (canonicalChar b (Char.ofNat (65 + n))) =
          canonicalChar b (Char.ofNat (65 + n)) := by decide
    obtain ⟨n, rfl | rfl⟩ := isLetter_ofNat h
    · exact (letters n b).1
    · exact (letters n b).2
  · simp only [not_or, Bool.not_eq_true] at h
    simp [canonicalChar, h]

lemma canonicalize_idem (b : Bool) (s : GoString) :
    canonicalize b (canonicalize b s) = canonicalize b s := by
  induction s generalizing b with
  | nil => rfl
  | cons c s ih => simp only [canonicalize, canonicalChar_idem, ih]

lemma canonicalMIMEHeaderKey_idem (s : GoString) :
    canonicalMIMEHeaderKey (canonicalMIMEHeaderKey s) = canonicalMIMEHeaderKey s := by
  unfold canonicalMIMEHeaderKey
  by_cases hs : s.all validHeaderFieldByte
  · rw [if_pos hs]
    split
    · exact canonicalize_idem true s
    · rfl
  · rw [if_neg hs, if_neg hs]

lemma canonicallyKeyed_add {h : Header} (hh : CanonicallyKeyed h) (key value : GoString) :
    CanonicallyKeyed (h.add key value) :=
  canonicallyKeyed_put _ hh (canonicalMIMEHeaderKey_idem key)

/-- Every header map net/http reads from the wire is canonically keyed. -/
lemma canonicallyKeyed_readMIMEHeader (fields : List (GoString × GoString)) :
    CanonicallyKeyed (readMIMEHeader fields) := by
  suffices ∀ start : Header, CanonicallyKeyed start → CanonicallyKeyed (fields.foldl
      (fun h f => if canonicalMIMEHeaderKey f.1 = [] then h else h.add f.1 f.2) start) from
    this _ canonicallyKeyed_empty
  induction fields with
  | nil => exact fun _ hs => hs
  | cons f fields ih =>
    refine fun start hs => ih _ ?_
    dsimp only
    split
    · exact hs
    · exact canonicallyKeyed_add hs f.1 f.2

example : readMIMEHeader [("x-webauth-user".toList, "admin".toList), ("Accept".toList, "*/*".toList),
    ("X-WEBAUTH-USER".toList, "root".toList)] "X-Webauth-User".toList =
      some ["admin".toList, "root".toList] := by decide

end Traefik
