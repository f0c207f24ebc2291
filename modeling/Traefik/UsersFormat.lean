import Traefik.Users

/-!
# The users file format

A users store is a list of entries, and stands for the map that gives every key the secret of
its last entry. Written as inline users and as a users file, one `user:secret` (basic) or
`user:realm:secret` (digest) entry a line, it reads back through the parsers to that map,
provided no field holds a `':'` and every line of the file is a `UsersLine`.
-/

namespace Traefik

/-- A basic users entry `user:secret`. -/
def basicLine (p : GoString × GoString) : GoString := p.1 ++ ':' :: p.2

/-- A digest users entry `user:realm:secret`. -/
def digestLine (t : GoString × GoString × GoString) : GoString :=
  t.1 ++ ':' :: t.2.1 ++ ':' :: t.2.2

/-- Where a digest entry goes in the users map: under `user:realm`. -/
def digestKey (t : GoString × GoString × GoString) : GoString × GoString :=
  (t.1 ++ ':' :: t.2.1, t.2.2)

/-- The map a list of entries stands for: a key holds the secret of its last entry. -/
def lookupLast (db : List (GoString × GoString)) (k : GoString) : Option GoString :=
  (db.reverse.find? (·.1 == k)).map (·.2)

lemma lookupLast_cons (p : GoString × GoString) (db : List (GoString × GoString)) (k : GoString) :
    lookupLast (p :: db) k = (lookupLast db k).or (if p.1 = k then some p.2 else none) := by
  simp only [lookupLast, List.reverse_cons, List.find?_append]
  cases List.find? (·.1 == k) db.reverse <;> by_cases hk : p.1 = k <;> simp [hk]

lemma basicEntry_basicLine {p : GoString × GoString} (h : ':' ∉ p.1 ∧ ':' ∉ p.2) :
    basicEntry (split (basicLine p) ':') = some p := by
  simp [basicLine, split_append_sep, split_of_not_mem h.1, split_of_not_mem h.2, basicEntry]

lemma digestEntry_digestLine {t : GoString × GoString × GoString}
    (h : ':' ∉ t.1 ∧ ':' ∉ t.2.1 ∧ ':' ∉ t.2.2) :
    digestEntry (split (digestLine t) ':') = some (digestKey t) := by
  simp [digestLine, split_append_sep, split_of_not_mem h.1, split_of_not_mem h.2.1,
    split_of_not_mem h.2.2, digestEntry, digestKey]

section Roundtrip

variable {α : Type} {entry : List GoString → Option (GoString × GoString)}
  {line : α → GoString} {kv : α → GoString × GoString}

/-- Over entries the loop accepts, the map it builds is the one the entries stand for. -/
lemma fillUserMap_map : ∀ {xs : List α} (m : GoString → Option GoString),
    (∀ x ∈ xs, entry (split (line x) ':') = some (kv x)) →
    fillUserMap entry (xs.map line) m = .ok fun k => (lookupLast (xs.map kv) k).or (m k)
  | [], _, _ => rfl
  | x :: xs, m, h => by
    simp only [List.map_cons, fillUserMap, h x (List.mem_cons_self x xs),
      fillUserMap_map _ fun y hy => h y (List.mem_cons_of_mem x hy)]
    congr 1
    funext k
    rw [lookupLast_cons, Option.or_assoc]
    by_cases hk : (kv x).1 = k
    · simp [put, hk]
    · simp [put, hk, Ne.symm hk]

lemma parserUsers_map {readFile : GoString → Except GoError GoString} {usersFile : GoString}
    {inline stored : List α} (hf : usersFile ≠ [])
    (hkv : ∀ x ∈ inline ++ stored, entry (split (line x) ':') = some (kv x))
    (hl : ∀ x ∈ stored, UsersLine (line x))
    (hr : readFile usersFile = .ok (['\n'].intercalate (stored.map line))) :
    parserUsers readFile entry (inline.map line) usersFile =
      .ok (lookupLast ((inline ++ stored).map kv)) := by
  have hls := (fileLines_intercalate_eq_iff (stored.map line)).mpr (by simpa using hl)
  have hlines : FileLines readFile usersFile (stored.map line) :=
    .inr ⟨hf, hls ▸ getLinesFromFile_of_ok hr⟩
  rw [parserUsers_eq hlines, ← List.map_append, fillUserMap_map _ hkv]
  simp

end Roundtrip

/-- A users store written as inline users and as a users file reads back to the map it stands
for, for both schemes. -/
theorem users_file_roundtrip (readFile : GoString → Except GoError GoString)
    (usersFile : GoString) :
    (∀ inline stored : List (GoString × GoString), usersFile ≠ [] →
      (∀ p ∈ inline ++ stored, ':' ∉ p.1 ∧ ':' ∉ p.2) → (∀ p ∈ stored, UsersLine (basicLine p)) →
      readFile usersFile = .ok (['\n'].intercalate (stored.map basicLine)) →
      parserBasicUsers readFile ⟨inline.map basicLine, usersFile⟩ =
        .ok (lookupLast (inline ++ stored))) ∧
    (∀ inline stored : List (GoString × GoString × GoString), usersFile ≠ [] →
      (∀ t ∈ inline ++ stored, ':' ∉ t.1 ∧ ':' ∉ t.2.1 ∧ ':' ∉ t.2.2) →
      (∀ t ∈ stored, UsersLine (digestLine t)) →
      readFile usersFile = .ok (['\n'].intercalate (stored.map digestLine)) →
      parserDigestUsers readFile ⟨inline.map digestLine, usersFile⟩ =
        .ok (lookupLast ((inline ++ stored).map digestKey))) := by
  refine ⟨fun inline stored hf hc hl hr => ?_, fun inline stored hf hc hl hr => ?_⟩
  · simpa using parserUsers_map hf (fun p hp => basicEntry_basicLine (hc p hp)) hl hr
  · exact parserUsers_map hf (fun t ht => digestEntry_digestLine (hc t ht)) hl hr

theorem alice_bob_users_file_roundtrip :
    parserBasicUsers (fun _ => .ok "bob:y\nalice:z".toList)
        ⟨["alice:x".toList], "users".toList⟩ =
      .ok (lookupLast [("alice".toList, "x".toList), ("bob".toList, "y".toList),
        ("alice".toList, "z".toList)]) ∧
    parserDigestUsers (fun _ => .ok "bob:traefik:y".toList)
        ⟨["alice:traefik:x".toList], "users".toList⟩ =
      .ok (lookupLast ([("alice".toList, "traefik".toList, "x".toList),
        ("bob".toList, "traefik".toList, "y".toList)].map digestKey)) :=
  ⟨(users_file_roundtrip _ _).1 [("alice".toList, "x".toList)]
      [("bob".toList, "y".toList), ("alice".toList, "z".toList)] (by decide) (by decide)
      (by decide) rfl,
    (users_file_roundtrip _ _).2 [("alice".toList, "traefik".toList, "x".toList)]
      [("bob".toList, "traefik".toList, "y".toList)] (by decide) (by decide) (by decide) rfl⟩

end Traefik
