import Traefik.UsersFile

/-!
# Users lists

`parserBasicUsers` and `parserDigestUsers` append the lines of the users file to the inline
users, split every entry on `":"` and store it in a Go map, so that a later entry for a key
overwrites an earlier one. The two parsers differ only in how many fields an entry has and
how the fields make the key; `fillUserMap` is their common loop.
-/

namespace Traefik

/-- `types.Basic`, the fields `parserBasicUsers` reads. -/
structure Basic where
  users : List GoString
  usersFile : GoString
  deriving DecidableEq

/-- `types.Digest`, the fields `parserDigestUsers` reads. -/
structure Digest where
  users : List GoString
  usersFile : GoString
  deriving DecidableEq

/-- `userStrs` of the parsers: the inline users, then the lines of the users file. -/
def userStrs (readFile : GoString → Except GoError GoString) (users : List GoString)
    (usersFile : GoString) : Except GoError (List GoString) :=
  if usersFile = [] then pure users else do
    let lines ← getLinesFromFile readFile usersFile
    pure (users ++ lines)

/-- `fmt.Errorf("Error parsing Authenticator user: %v", user)`. -/
def errParsingUser (user : GoString) : GoError :=
  "Error parsing Authenticator user: ".toList ++ user

/-- The loop of both parsers. `entry` turns the fields of one entry into a key and a secret,
and rejects a wrong number of fields. -/
def fillUserMap (entry : List GoString → Option (GoString × GoString)) :
    List GoString → (GoString → Option GoString) → Except GoError (GoString → Option GoString)
  | [], userMap => .ok userMap
  | user :: rest, userMap =>
    match entry (split user ':') with
    | none => .error (errParsingUser user)
    | some (key, secret) => fillUserMap entry rest (put userMap key secret)

def parserUsers (readFile : GoString → Except GoError GoString)
    (entry : List GoString → Option (GoString × GoString)) (users : List GoString)
    (usersFile : GoString) : Except GoError (GoString → Option GoString) := do
  let strs ← userStrs readFile users usersFile
  fillUserMap entry strs fun _ => none

/-- A basic entry is `user:secret`, stored under `user`. -/
def basicEntry : List GoString → Option (GoString × GoString)
  | [user, secret] => some (user, secret)
  | _ => none

/-- A digest entry is `user:realm:secret`, stored under `user:realm`. -/
def digestEntry : List GoString → Option (GoString × GoString)
  | [user, realm, secret] => some (user ++ ':' :: realm, secret)
  | _ => none

def parserBasicUsers (readFile : GoString → Except GoError GoString) (basic : Basic) :
    Except GoError (GoString → Option GoString) :=
  parserUsers readFile basicEntry basic.users basic.usersFile

def parserDigestUsers (readFile : GoString → Except GoError GoString) (digest : Digest) :
    Except GoError (GoString → Option GoString) :=
  parserUsers readFile digestEntry digest.users digest.usersFile

lemma basicEntry_eq_some {fs : List GoString} {p : GoString × GoString} :
    basicEntry fs = some p ↔ fs = [p.1, p.2] := by
  match fs with
  | [] | [_] | _ :: _ :: _ :: _ => simp [basicEntry]
  | [_, _] => simp [basicEntry, Prod.ext_iff, eq_comm]

lemma digestEntry_eq_some {fs : List GoString} {p : GoString × GoString} :
    digestEntry fs = some p ↔ ∃ user realm, fs = [user, realm, p.2] ∧ p.1 = user ++ ':' :: realm := by
  match fs with
  | [] | [_] | [_, _] | _ :: _ :: _ :: _ :: _ => simp [digestEntry]
  | [a, b, c] =>
    refine ⟨fun h => ⟨a, b, ?_⟩, fun ⟨u, r, h, hp⟩ => ?_⟩
    · simp only [digestEntry, Option.some.injEq] at h
      simp [← h]
    · simp only [List.cons.injEq, and_true] at h
      obtain ⟨rfl, rfl, rfl⟩ := h
      simp [digestEntry, ← hp]

lemma basicEntry_eq_none_iff (fs : List GoString) : basicEntry fs = none ↔ fs.length ≠ 2 := by
  match fs with
  | [] | [_] | [_, _] | _ :: _ :: _ :: _ => simp [basicEntry]

lemma digestEntry_eq_none_iff (fs : List GoString) : digestEntry fs = none ↔ fs.length ≠ 3 := by
  match fs with
  | [] | [_] | [_, _] | [_, _, _] | _ :: _ :: _ :: _ :: _ => simp [digestEntry]

section Loop

variable {entry : List GoString → Option (GoString × GoString)}

lemma fillUserMap_error_iff : ∀ (us : List GoString) (m : GoString → Option GoString),
    (∃ e, fillUserMap entry us m = .error e) ↔ ∃ u ∈ us, entry (split u ':') = none
  | [], m => by simp [fillUserMap]
  | u :: us, m => by
    cases hu : entry (split u ':') with
    | none => simp [fillUserMap, hu]
    | some p => simp [fillUserMap, hu, fillUserMap_error_iff us]

/-- An error names the first entry with the wrong number of fields. -/
lemma fillUserMap_error : ∀ {us : List GoString} {m : GoString → Option GoString} {e : GoError},
    fillUserMap entry us m = .error e → ∃ pre u post, us = pre ++ u :: post ∧
      (∀ v ∈ pre, entry (split v ':') ≠ none) ∧ entry (split u ':') = none ∧ e = errParsingUser u
  | [], _, _, h => by simp [fillUserMap] at h
  | u :: us, m, e, h => by
    cases hu : entry (split u ':') with
    | none =>
      simp only [fillUserMap, hu, Except.error.injEq] at h
      exact ⟨[], u, us, rfl, by simp, hu, h.symm⟩
    | some p =>
      simp only [fillUserMap, hu] at h
      obtain ⟨pre, v, post, rfl, hpre, hv, he⟩ := fillUserMap_error h
      refine ⟨u :: pre, v, post, rfl, ?_, hv, he⟩
      simpa [hu] using hpre

/-- The loop stops at the first entry with the wrong number of fields, and names it. -/
lemma fillUserMap_append_error {u : GoString} (hu : entry (split u ':') = none)
    (post : List GoString) : ∀ {pre : List GoString} {m : GoString → Option GoString},
    (∀ v ∈ pre, entry (split v ':') ≠ none) →
    fillUserMap entry (pre ++ u :: post) m = .error (errParsingUser u)
  | [], _, _ => by simp [fillUserMap, hu]
  | v :: pre, m, hpre => by
    obtain ⟨p, hp⟩ := Option.ne_none_iff_exists'.mp (hpre v (List.mem_cons_self v pre))
    simp only [List.cons_append, fillUserMap, hp]
    exact fillUserMap_append_error hu post fun w hw => hpre w (List.mem_cons_of_mem v hw)

/-- A property of every key and secret an entry yields holds of every key and secret the loop
stores: `put` keeps it (`put_eq_some`), and so does every pass of the loop. -/
lemma fillUserMap_invariant (P : GoString → GoString → Prop)
    (hP : ∀ u p, entry (split u ':') = some p → P p.1 p.2) :
    ∀ {us : List GoString} {m m' : GoString → Option GoString}, fillUserMap entry us m = .ok m' →
    (∀ k s, m k = some s → P k s) → ∀ k s, m' k = some s → P k s
  | [], _, _, h, hm => by cases h; exact hm
  | u :: us, m, m', h, hm => by
    cases hu : entry (split u ':') with
    | none => simp [fillUserMap, hu] at h
    | some p =>
      simp only [fillUserMap, hu] at h
      refine fillUserMap_invariant P hP h fun k s hk => ?_
      rcases put_eq_some hk with ⟨rfl, rfl⟩ | hk
      · exact hP u p hu
      · exact hm k s hk

/-- The map the loop builds holds, for each key, the secret of the last entry with that key. -/
lemma fillUserMap_apply : ∀ {us : List GoString} {m m' : GoString → Option GoString},
    fillUserMap entry us m = .ok m' → ∀ k, m' k =
      (((us.reverse.filterMap fun u => entry (split u ':')).find? (·.1 == k)).map (·.2)).or (m k)
  | [], m, m', h, k => by cases h; simp
  | u :: us, m, m', h, k => by
    cases hu : entry (split u ':') with
    | none => simp [fillUserMap, hu] at h
    | some p =>
      simp only [fillUserMap, hu] at h
      rw [fillUserMap_apply h k]
      simp only [List.reverse_cons, List.filterMap_append, List.filterMap_cons, hu,
        List.filterMap_nil, List.find?_append]
      cases List.find? (·.1 == k) (us.reverse.filterMap fun u => entry (split u ':')) with
      | some x => rfl
      | none =>
        by_cases hk : k = p.1
        · simp [put, hk]
        · simp [put, hk, Ne.symm hk]

/-- Over entries that all have their number of fields, the loop's lookup is a search of the
split entries, once `P` and `val` read the key test and the secret off the fields. -/
lemma find_filterMap_entry (P : List GoString → Bool) (val : List GoString → GoString)
    (k : GoString) : ∀ l : List GoString, (∀ u ∈ l, ∃ p, entry (split u ':') = some p ∧
      (p.1 == k) = P (split u ':') ∧ p.2 = val (split u ':')) →
    ((l.filterMap fun u => entry (split u ':')).find? (·.1 == k)).map (·.2) =
      ((l.map (split · ':')).find? P).map val
  | [], _ => rfl
  | u :: l, hl => by
    obtain ⟨p, hp, hk, hv⟩ := hl u (List.mem_cons_self u l)
    have ih := find_filterMap_entry P val k l fun v hv => hl v (List.mem_cons_of_mem u hv)
    by_cases hP : P (split u ':') <;> simp_all [List.filterMap_cons, List.find?_cons]

end Loop

section Parser

variable {readFile : GoString → Except GoError GoString} {entry : List GoString → Option (GoString × GoString)}
  {users lines : List GoString} {usersFile : GoString}

/-- The users file is either unset, and adds no line, or read into `lines`. -/
def FileLines (readFile : GoString → Except GoError GoString) (usersFile : GoString)
    (lines : List GoString) : Prop :=
  usersFile = [] ∧ lines = [] ∨ usersFile ≠ [] ∧ getLinesFromFile readFile usersFile = .ok lines

/-- A set users file is either unreadable, or read into its lines. -/
lemma fileLines_or_read_error (readFile : GoString → Except GoError GoString)
    (usersFile : GoString) : (usersFile ≠ [] ∧ ∃ e, readFile usersFile = .error e) ∨
      ∃ lines, FileLines readFile usersFile lines := by
  by_cases hf : usersFile = []
  · exact .inr ⟨[], .inl ⟨hf, rfl⟩⟩
  · cases hr : readFile usersFile with
    | error e => exact .inl ⟨hf, e, rfl⟩
    | ok dat => exact .inr ⟨fileLines dat, .inr ⟨hf, getLinesFromFile_of_ok hr⟩⟩

lemma userStrs_eq (hl : FileLines readFile usersFile lines) :
    userStrs readFile users usersFile = .ok (users ++ lines) := by
  rcases hl with ⟨rfl, rfl⟩ | ⟨hf, hl⟩
  · simp [userStrs, pure, Except.pure]
  · simp [userStrs, hf, hl, bind, Except.bind, pure, Except.pure]

lemma parserUsers_eq (hl : FileLines readFile usersFile lines) :
    parserUsers readFile entry users usersFile = fillUserMap entry (users ++ lines) fun _ => none := by
  simp [parserUsers, userStrs_eq hl, bind, Except.bind]

/-- An unreadable users file fails the parser with the read error itself. -/
lemma parserUsers_read_error {e : GoError} (hf : usersFile ≠ []) (he : readFile usersFile = .error e) :
    parserUsers readFile entry users usersFile = .error e := by
  simp [parserUsers, userStrs, getLinesFromFile, hf, he, bind, Except.bind]

lemma parserUsers_error_iff (hl : FileLines readFile usersFile lines) :
    (∃ e, parserUsers readFile entry users usersFile = .error e) ↔
      ∃ u ∈ users ++ lines, entry (split u ':') = none := by
  rw [parserUsers_eq hl, fillUserMap_error_iff]

/-- A parser error names the first entry of `users ++ lines` with the wrong number of
fields. -/
lemma parserUsers_error {e : GoError} (hl : FileLines readFile usersFile lines)
    (h : parserUsers readFile entry users usersFile = .error e) :
    ∃ pre u post, users ++ lines = pre ++ u :: post ∧ (∀ v ∈ pre, entry (split v ':') ≠ none) ∧
      entry (split u ':') = none ∧ e = errParsingUser u := by
  rw [parserUsers_eq hl] at h
  exact fillUserMap_error h

lemma parserUsers_apply {m : GoString → Option GoString} (hl : FileLines readFile usersFile lines)
    (h : parserUsers readFile entry users usersFile = .ok m) (k : GoString) :
    m k = ((((users ++ lines).reverse.filterMap fun u => entry (split u ':')).find?
      (·.1 == k)).map (·.2)) := by
  rw [parserUsers_eq hl] at h
  simpa using fillUserMap_apply h k

/-- A parser succeeds exactly when every entry of `users ++ lines` has its number of fields. -/
lemma parserUsers_ok_iff (hl : FileLines readFile usersFile lines) :
    (∃ m, parserUsers readFile entry users usersFile = .ok m) ↔
      ∀ u ∈ users ++ lines, entry (split u ':') ≠ none := by
  constructor
  · rintro ⟨m, hm⟩ u hu hn
    obtain ⟨e, he⟩ := (parserUsers_error_iff hl).mpr ⟨u, hu, hn⟩
    rw [hm] at he
    cases he
  · intro h
    cases hp : parserUsers readFile entry users usersFile with
    | ok m => exact ⟨m, rfl⟩
    | error e =>
      obtain ⟨u, hu, hn⟩ := (parserUsers_error_iff hl).mp ⟨e, hp⟩
      exact absurd hn (h u hu)

lemma parserUsers_ok_entry {m : GoString → Option GoString}
    (hl : FileLines readFile usersFile lines) (h : parserUsers readFile entry users usersFile = .ok m) :
    ∀ u ∈ users ++ lines, ∃ p, entry (split u ':') = some p := fun u hu =>
  Option.ne_none_iff_exists'.mp ((parserUsers_ok_iff hl).mp ⟨m, h⟩ u hu)

/-- Every error of a parser: the read error of the users file, or the first entry of
`users ++ lines` with the wrong number of fields. -/
lemma parserUsers_error_eq_iff {e : GoError} :
    parserUsers readFile entry users usersFile = .error e ↔
      (usersFile ≠ [] ∧ readFile usersFile = .error e) ∨
      ∃ lines, FileLines readFile usersFile lines ∧ ∃ pre u post, users ++ lines = pre ++ u :: post ∧
        (∀ v ∈ pre, entry (split v ':') ≠ none) ∧ entry (split u ':') = none ∧
        e = errParsingUser u := by
  constructor
  · intro h
    rcases fileLines_or_read_error readFile usersFile with ⟨hf, e', he'⟩ | ⟨lines, hl⟩
    · rw [parserUsers_read_error hf he', Except.error.injEq] at h
      exact .inl ⟨hf, h ▸ he'⟩
    · exact .inr ⟨lines, hl, parserUsers_error hl h⟩
  · rintro (⟨hf, he⟩ | ⟨lines, hl, pre, u, post, hs, hpre, hu, rfl⟩)
    · exact parserUsers_read_error hf he
    · rw [parserUsers_eq hl, hs]
      exact fillUserMap_append_error hu post hpre

lemma parserUsers_invariant {m : GoString → Option GoString} (P : GoString → GoString → Prop)
    (hP : ∀ u p, entry (split u ':') = some p → P p.1 p.2)
    (h : parserUsers readFile entry users usersFile = .ok m) : ∀ k s, m k = some s → P k s := by
  rcases fileLines_or_read_error readFile usersFile with ⟨hf, e, he⟩ | ⟨lines, hl⟩
  · rw [parserUsers_read_error hf he] at h
    cases h
  · rw [parserUsers_eq hl] at h
    exact fillUserMap_invariant P hP h fun _ _ h => by cases h

/-- A parser reads the users file only when one is set. -/
lemma parserUsers_congr_readFile {readFile' : GoString → Except GoError GoString}
    (h : usersFile ≠ [] → readFile' usersFile = readFile usersFile) :
    parserUsers readFile' entry users usersFile = parserUsers readFile entry users usersFile := by
  by_cases hf : usersFile = []
  · simp [parserUsers, userStrs, hf]
  · simp [parserUsers, userStrs, getLinesFromFile, hf, h hf]

lemma parserUsers_congr {readFile' : GoString → Except GoError GoString}
    (h : getLinesFromFile readFile' usersFile = getLinesFromFile readFile usersFile) :
    parserUsers readFile' entry users usersFile = parserUsers readFile entry users usersFile := by
  simp [parserUsers, userStrs, h]

end Parser

/-- The errors of the two parsers, each exactly: the read error of a set users file, or
`Error parsing Authenticator user: ` followed by the first entry of `Users ++ lines` whose
number of fields is wrong. -/
theorem parsers_error_iff (readFile : GoString → Except GoError GoString) (basic : Basic)
    (digest : Digest) (e : GoError) :
    (parserBasicUsers readFile basic = .error e ↔
      (basic.usersFile ≠ [] ∧ readFile basic.usersFile = .error e) ∨
      ∃ lines, FileLines readFile basic.usersFile lines ∧ ∃ pre u post,
        basic.users ++ lines = pre ++ u :: post ∧ (∀ v ∈ pre, (split v ':').length = 2) ∧
        (split u ':').length ≠ 2 ∧ e = errParsingUser u) ∧
    (parserDigestUsers readFile digest = .error e ↔
      (digest.usersFile ≠ [] ∧ readFile digest.usersFile = .error e) ∨
      ∃ lines, FileLines readFile digest.usersFile lines ∧ ∃ pre u post,
        digest.users ++ lines = pre ++ u :: post ∧ (∀ v ∈ pre, (split v ':').length = 3) ∧
        (split u ':').length ≠ 3 ∧ e = errParsingUser u) := by
  simp only [parserBasicUsers, parserDigestUsers, parserUsers_error_eq_iff, ne_eq,
    basicEntry_eq_none_iff, digestEntry_eq_none_iff, not_not, and_self]

/-- No key or secret of a basic users map holds a `':'`, and every key of a digest users map is
`user:realm` with `user` and `realm` free of `':'`. -/
theorem users_map_colon_free (readFile : GoString → Except GoError GoString) (basic : Basic)
    (digest : Digest) :
    (∀ m, parserBasicUsers readFile basic = .ok m → ∀ k s, m k = some s → ':' ∉ k ∧ ':' ∉ s) ∧
    (∀ m, parserDigestUsers readFile digest = .ok m → ∀ k s, m k = some s →
      ∃ user realm, ':' ∉ user ∧ ':' ∉ realm ∧ k = user ++ ':' :: realm ∧ ':' ∉ s) := by
  refine ⟨fun m h => parserUsers_invariant _ (fun u p hp => ?_) h,
    fun m h => parserUsers_invariant _ (fun u p hp => ?_) h⟩
  · have hs := not_mem_of_mem_split u ':'
    rw [basicEntry_eq_some.mp hp] at hs
    exact ⟨hs _ (by simp), hs _ (by simp)⟩
  · obtain ⟨user, realm, hfs, hk⟩ := digestEntry_eq_some.mp hp
    have hs := not_mem_of_mem_split u ':'
    rw [hfs] at hs
    exact ⟨user, realm, hs _ (by simp), hs _ (by simp), hk, hs _ (by simp)⟩

lemma filterMap_trimmedLine : ∀ ls : List GoString,
    ls.filterMap trimmedLine = (ls.map trimSpace).filter (· ≠ [])
  | [] => rfl
  | l :: ls => by
    by_cases h : trimSpace l = [] <;>
      simp [trimmedLine, h, List.filter_cons, filterMap_trimmedLine ls]

theorem getLinesFromFile_ignores_blank_variants (readFile readFile' : GoString → Except GoError GoString)
    (filename f g : GoString) (hf : readFile filename = .ok f) (hg : readFile' filename = .ok g)
    (h : Relation.ReflTransGen BlankVariant f g) :
    getLinesFromFile readFile filename = .ok (((split f '\n').map trimSpace).filter (· ≠ [])) ∧
    getLinesFromFile readFile' filename = getLinesFromFile readFile filename ∧
    (∀ basic : Basic, basic.usersFile = filename →
      parserBasicUsers readFile' basic = parserBasicUsers readFile basic) ∧
    (∀ digest : Digest, digest.usersFile = filename →
      parserDigestUsers readFile' digest = parserDigestUsers readFile digest) := by
  have hlines := getLinesFromFile_blankVariants hf hg h
  refine ⟨?_, hlines, fun basic hb => ?_, fun digest hd => ?_⟩
  · simp [getLinesFromFile, hf, fileLines, filterMap_trimmedLine, bind, Except.bind, pure,
      Except.pure]
  · exact parserUsers_congr (hb ▸ hlines)
  · exact parserUsers_congr (hd ▸ hlines)

/-- A two-line users file padded, given a blank line and saved with CRLF line ends reads the
same. -/
theorem alice_file_crlf_same_users :
    getLinesFromFile (fun _ => .ok "alice:x\nbob:y".toList) "users".toList =
        .ok ((((split "alice:x\nbob:y".toList '\n').map trimSpace).filter (· ≠ []))) ∧
    getLinesFromFile (fun _ => .ok "alice:x\r\n  \r\n bob:y  ".toList) "users".toList =
        getLinesFromFile (fun _ => .ok "alice:x\nbob:y".toList) "users".toList ∧
    (∀ basic : Basic, basic.usersFile = "users".toList →
      parserBasicUsers (fun _ => .ok "alice:x\r\n  \r\n bob:y  ".toList) basic =
        parserBasicUsers (fun _ => .ok "alice:x\nbob:y".toList) basic) ∧
    (∀ digest : Digest, digest.usersFile = "users".toList →
      parserDigestUsers (fun _ => .ok "alice:x\r\n  \r\n bob:y  ".toList) digest =
        parserDigestUsers (fun _ => .ok "alice:x\nbob:y".toList) digest) :=
  getLinesFromFile_ignores_blank_variants _ _ _ _ _ rfl rfl
    (((Relation.ReflTransGen.single
      (BlankVariant.pad ["alice:x".toList] [] "bob:y".toList " ".toList "  ".toList
        (by decide) (by decide))).tail
      (BlankVariant.blankLine ["alice:x".toList] [" bob:y  ".toList] "  ".toList (by decide))).tail
      (BlankVariant.crlf _))

end Traefik
