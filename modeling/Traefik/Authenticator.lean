import Traefik.Users
import Traefik.Header

/-!
# The authenticator middleware

`NewAuthenticator` parses the users of the configured scheme, basic before digest, and
builds a handler closure over go-http-auth. The closure asks the library's `CheckAuth` for
the user name; on success it files the name under `HeaderField` and calls `next`, on failure
it answers with the library's challenge. The library is a parameter: `HttpAuth` gives the user
name each check returns for a request, with the secret provider it was built with. Password
hashing, the digest nonce table and the challenge's text belong to the library and are not
modelled; logging is left out.
-/

namespace Traefik

/-- `types.Auth`, the fields `NewAuthenticator` reads. -/
structure Auth where
  basic : Option Basic
  digest : Option Digest
  headerField : GoString
  deriving DecidableEq

/-- `http.Request`: the header the middleware rewrites, and the method and URI that
go-http-auth's digest check reads. -/
structure Request where
  method : GoString
  requestURI : GoString
  header : Header

inductive Scheme
  | basic
  | digest
  deriving DecidableEq, Repr

/-- The `negroni.HandlerFunc` closure, by its scheme and the header field it files the user
name under. -/
structure Handler where
  scheme : Scheme
  headerField : GoString
  deriving DecidableEq, Repr

/-- `Authenticator`; a nil `handler` is `none`. -/
structure Authenticator where
  handler : Option Handler
  users : GoString → Option GoString

/-- The realm `NewAuthenticator` gives go-http-auth. -/
def realm : GoString := "traefik".toList

/-- go-http-auth's `CheckAuth`: the user name it accepts for a request, `""` if none. Each
check gets the secret provider and the realm it was built with. -/
structure HttpAuth where
  basicCheckAuth : (GoString → GoString → GoString) → GoString → Request → GoString
  digestCheckAuth : (GoString → GoString → GoString) → GoString → Request → GoString

/-- What one call of `ServeHTTP` does: the scheme's 401 challenge (`RequireAuth`), a call of
`next` with the request as rewritten, or a call through a nil handler, which panics. -/
inductive Outcome
  | requireAuth (scheme : Scheme)
  | next (r : Request)
  | nilHandler

/-- The lookup shared by `secretBasic` and `secretDigest`: the stored secret, or `""`. -/
def Authenticator.secret (a : Authenticator) (key : GoString) : GoString :=
  match a.users key with
  | some secret => secret
  | none => []

def Authenticator.secretBasic (a : Authenticator) (user _realm : GoString) : GoString :=
  a.secret user

def Authenticator.secretDigest (a : Authenticator) (user realm : GoString) : GoString :=
  a.secret (user ++ ':' :: realm)

/-- `fmt.Errorf("Error creating Authenticator: auth is nil")`. -/
def errAuthIsNil : GoError := "Error creating Authenticator: auth is nil".toList

def newAuthenticator (readFile : GoString → Except GoError GoString) :
    Option Auth → Except GoError Authenticator
  | none => .error errAuthIsNil
  | some authConfig =>
    match authConfig.basic, authConfig.digest with
    | some basic, _ => do
      let users ← parserBasicUsers readFile basic
      pure ⟨some ⟨.basic, authConfig.headerField⟩, users⟩
    | none, some digest => do
      let users ← parserDigestUsers readFile digest
      pure ⟨some ⟨.digest, authConfig.headerField⟩, users⟩
    | none, none => pure ⟨none, fun _ => none⟩

/-- The user name the closure's `CheckAuth` returns for `r`. -/
def Handler.checkAuth (lib : HttpAuth) (a : Authenticator) (h : Handler) (r : Request) :
    GoString :=
  match h.scheme with
  | .basic => lib.basicCheckAuth a.secretBasic realm r
  | .digest => lib.digestCheckAuth a.secretDigest realm r

/-- The body of the basic and of the digest closure. -/
def Handler.serveHTTP (lib : HttpAuth) (a : Authenticator) (h : Handler) (r : Request) :
    Outcome :=
  let username := h.checkAuth lib a r
  if username = [] then .requireAuth h.scheme
  else if h.headerField ≠ [] then .next { r with header := put r.header h.headerField [username] }
  else .next r

def Authenticator.serveHTTP (lib : HttpAuth) (a : Authenticator) (r : Request) : Outcome :=
  match a.handler with
  | none => .nilHandler
  | some h => h.serveHTTP lib a r

section Construction

variable {readFile : GoString → Except GoError GoString}

/-- Everything a successful `NewAuthenticator` can have done. -/
lemma newAuthenticator_ok {authConfig : Option Auth} {a : Authenticator}
    (h : newAuthenticator readFile authConfig = .ok a) : ∃ cfg, authConfig = some cfg ∧
      ((∃ basic, cfg.basic = some basic ∧ parserBasicUsers readFile basic = .ok a.users ∧
          a.handler = some ⟨.basic, cfg.headerField⟩) ∨
        (cfg.basic = none ∧ ∃ digest, cfg.digest = some digest ∧
          parserDigestUsers readFile digest = .ok a.users ∧
          a.handler = some ⟨.digest, cfg.headerField⟩) ∨
        (cfg.basic = none ∧ cfg.digest = none ∧ a = ⟨none, fun _ => none⟩)) := by
  match authConfig, h with
  | some cfg, h =>
    refine ⟨cfg, rfl, ?_⟩
    rcases hb : cfg.basic with _ | basic
    · rcases hd : cfg.digest with _ | digest
      · simp only [newAuthenticator, hb, hd, pure, Except.pure, Except.ok.injEq] at h
        exact .inr (.inr ⟨rfl, rfl, h.symm⟩)
      · obtain ⟨users, hp, rfl⟩ := bind_pure_eq_ok.mp (by simpa [newAuthenticator, hb, hd] using h)
        exact .inr (.inl ⟨rfl, digest, rfl, hp, rfl⟩)
    · obtain ⟨users, hp, rfl⟩ := bind_pure_eq_ok.mp (by simpa [newAuthenticator, hb] using h)
      exact .inl ⟨basic, rfl, hp, rfl⟩

/-- The closure files the user name under the configured header field. -/
lemma newAuthenticator_headerField {cfg : Auth} {a : Authenticator} {hd : Handler}
    (h : newAuthenticator readFile (some cfg) = .ok a) (hh : a.handler = some hd) :
    hd.headerField = cfg.headerField := by
  obtain ⟨_, hc, ⟨-, -, -, ha⟩ | ⟨-, -, -, -, ha⟩ | ⟨-, -, rfl⟩⟩ := newAuthenticator_ok h <;>
    cases hc <;> simp_all <;> cases hh <;> rfl

lemma newAuthenticator_basic {cfg : Auth} {basic : Basic} {a : Authenticator}
    (hb : cfg.basic = some basic) (h : newAuthenticator readFile (some cfg) = .ok a) :
    parserBasicUsers readFile basic = .ok a.users ∧ a.handler = some ⟨.basic, cfg.headerField⟩ := by
  obtain ⟨_, hc, ⟨b, hb', hp, hh⟩ | ⟨hn, -⟩ | ⟨hn, -⟩⟩ := newAuthenticator_ok h <;> cases hc <;>
    simp_all

lemma newAuthenticator_digest {cfg : Auth} {digest : Digest} {a : Authenticator}
    (hb : cfg.basic = none) (hd : cfg.digest = some digest)
    (h : newAuthenticator readFile (some cfg) = .ok a) :
    parserDigestUsers readFile digest = .ok a.users ∧
      a.handler = some ⟨.digest, cfg.headerField⟩ := by
  obtain ⟨_, hc, ⟨b, hb', -⟩ | ⟨-, d, hd', hp, hh⟩ | ⟨-, hn, -⟩⟩ := newAuthenticator_ok h <;>
    cases hc <;> simp_all

/-- With a basic section, `NewAuthenticator` succeeds exactly when its users parse. -/
lemma newAuthenticator_basic_ok_iff {cfg : Auth} {basic : Basic} (hb : cfg.basic = some basic) :
    (∃ a, newAuthenticator readFile (some cfg) = .ok a) ↔
      ∃ m, parserBasicUsers readFile basic = .ok m := by
  simp only [newAuthenticator, hb, exists_bind_pure_eq_ok]

/-- With a digest section and no basic one, `NewAuthenticator` succeeds exactly when its users
parse. -/
lemma newAuthenticator_digest_ok_iff {cfg : Auth} {digest : Digest} (hb : cfg.basic = none)
    (hd : cfg.digest = some digest) :
    (∃ a, newAuthenticator readFile (some cfg) = .ok a) ↔
      ∃ m, parserDigestUsers readFile digest = .ok m := by
  simp only [newAuthenticator, hb, hd, exists_bind_pure_eq_ok]

end Construction

/-- `NewAuthenticator` reads no file but the users file of the scheme it picks, basic before
digest, and that one only when it is set: two file systems that agree on it build the same
authenticator, or fail with the same error. -/
theorem newAuthenticator_reads_scheme_file (readFile readFile' : GoString → Except GoError GoString)
    (cfg : Auth)
    (hb : ∀ b, cfg.basic = some b → b.usersFile ≠ [] → readFile' b.usersFile = readFile b.usersFile)
    (hd : cfg.basic = none → ∀ d, cfg.digest = some d → d.usersFile ≠ [] →
      readFile' d.usersFile = readFile d.usersFile) :
    newAuthenticator readFile' (some cfg) = newAuthenticator readFile (some cfg) := by
  rcases hcb : cfg.basic with _ | b
  · rcases hcd : cfg.digest with _ | d
    · simp [newAuthenticator, hcb, hcd]
    · simp [newAuthenticator, hcb, hcd, parserDigestUsers,
        parserUsers_congr_readFile (hd hcb d hcd)]
  · simp [newAuthenticator, hcb, parserBasicUsers, parserUsers_congr_readFile (hb b hcb)]

/-- With both sections set, only the basic users file is read: an unreadable digest users file
changes nothing. -/
theorem digest_file_unread_beside_basic :
    newAuthenticator (fun _ => .ok "alice:x".toList)
        (some ⟨some ⟨[], "users".toList⟩, some ⟨[], "digest".toList⟩, []⟩) =
      newAuthenticator
        (fun f => if f = "users".toList then .ok "alice:x".toList else .error "unreadable".toList)
        (some ⟨some ⟨[], "users".toList⟩, some ⟨[], "digest".toList⟩, []⟩) :=
  newAuthenticator_reads_scheme_file _ _ _ (fun _ hb _ => by cases hb; rfl) (fun h => by cases h)

/-- A configuration with a header field and neither scheme builds an authenticator without
error, and every request then goes through its nil handler. -/
theorem header_field_only_config_panics :
    ∀ readFile, ∃ a, newAuthenticator readFile (some ⟨none, none, "X-WebAuth-User".toList⟩) =
      .ok a ∧ a.handler = none ∧ ∀ lib r, a.serveHTTP lib r = .nilHandler :=
  fun _ => ⟨⟨none, fun _ => none⟩, rfl, rfl, fun _ _ => rfl⟩

/-- The last basic entry whose first field is `user`, read for its second field; `""` when
there is none. -/
def lastBasicSecret (entries : List GoString) (user : GoString) : GoString :=
  match (entries.reverse.map (split · ':')).find? (fun fs => fs.head? == some user) with
  | some fs => fs.getD 1 []
  | none => []

/-- The last digest entry whose first two fields are `user` and `realm`, read for its third
field; `""` when there is none. -/
def lastDigestSecret (entries : List GoString) (user realm : GoString) : GoString :=
  match (entries.reverse.map (split · ':')).find? (fun fs => fs.take 2 == [user, realm]) with
  | some fs => fs.getD 2 []
  | none => []

lemma secret_eq_getD (a : Authenticator) (key : GoString) : a.secret key = (a.users key).getD [] := by
  unfold Authenticator.secret
  cases a.users key <;> rfl

theorem secretBasic_last_entry (readFile : GoString → Except GoError GoString) (basic : Basic) :
    (∀ e, basic.usersFile ≠ [] → readFile basic.usersFile = .error e →
      parserBasicUsers readFile basic = .error e) ∧
    ∀ lines, FileLines readFile basic.usersFile lines →
      ((∃ e, parserBasicUsers readFile basic = .error e) ↔
        ∃ u ∈ basic.users ++ lines, (split u ':').length ≠ 2) ∧
      (∀ cfg : Auth, cfg.basic = some basic →
        ((∃ a, newAuthenticator readFile (some cfg) = .ok a) ↔
          ∀ u ∈ basic.users ++ lines, (split u ':').length = 2)) ∧
      ∀ (cfg : Auth) (a : Authenticator), cfg.basic = some basic →
        newAuthenticator readFile (some cfg) = .ok a →
        ∀ user realm, a.secretBasic user realm = lastBasicSecret (basic.users ++ lines) user := by
  refine ⟨fun e hf he => parserUsers_read_error hf he, fun lines hl => ⟨?_, fun cfg hb => ?_, ?_⟩⟩
  · simp only [parserBasicUsers, parserUsers_error_iff hl, basicEntry_eq_none_iff]
  · simp only [newAuthenticator_basic_ok_iff hb, parserBasicUsers, parserUsers_ok_iff hl, ne_eq,
      basicEntry_eq_none_iff, not_not]
  · intro cfg a hb ha user _
    have hp := (newAuthenticator_basic hb ha).1
    have hwf := parserUsers_ok_entry hl hp
    have hfind := find_filterMap_entry (fun fs => fs.head? == some user) (·.getD 1 []) user
      (basic.users ++ lines).reverse fun u hu => by
        obtain ⟨p, hp⟩ := hwf u (List.mem_reverse.mp hu)
        rw [basicEntry_eq_some.mp hp]
        exact ⟨p, basicEntry_eq_some.mpr rfl, by simp, rfl⟩
    rw [Authenticator.secretBasic, secret_eq_getD, parserUsers_apply hl hp, hfind, lastBasicSecret]
    cases List.find? _ _ <;> rfl

/-- Alice is listed inline and again, padded, in a users file with a blank line: the file's
entry wins, a user listed nowhere has no secret, and an entry without a colon fails the parse. -/
theorem alice_bob_basic_secrets :
    parserBasicUsers (fun _ => .error "open users: no such file".toList) ⟨[], "users".toList⟩ =
      .error "open users: no such file".toList ∧
    (∃ e, parserBasicUsers (fun _ => .ok "bob:y\n\n  alice:z \n".toList)
      ⟨["alice:x".toList, "carol".toList], "users".toList⟩ = .error e) ∧
    ∃ a, newAuthenticator (fun _ => .ok "bob:y\n\n  alice:z \n".toList)
        (some ⟨some ⟨["alice:x".toList], "users".toList⟩, none, []⟩) = .ok a ∧
      a.secretBasic "alice".toList realm = "z".toList ∧ a.secretBasic "carol".toList realm = [] := by
  have hA := (secretBasic_last_entry (fun _ => .error "open users: no such file".toList)
    ⟨[], "users".toList⟩).1 _ (by decide) rfl
  have hB := (secretBasic_last_entry (fun _ => .ok "bob:y\n\n  alice:z \n".toList)
    ⟨["alice:x".toList, "carol".toList], "users".toList⟩).2 ["bob:y".toList, "alice:z".toList]
      (.inr ⟨by decide, rfl⟩)
  have hC := (secretBasic_last_entry (fun _ => .ok "bob:y\n\n  alice:z \n".toList)
    ⟨["alice:x".toList], "users".toList⟩).2 ["bob:y".toList, "alice:z".toList]
      (.inr ⟨by decide, rfl⟩)
  obtain ⟨a, ha⟩ := (hC.2.1 ⟨some ⟨["alice:x".toList], "users".toList⟩, none, []⟩ rfl).mpr
    (by decide)
  exact ⟨hA, hB.1.mpr ⟨"carol".toList, by decide, by decide⟩, a, ha,
    (hC.2.2 _ a rfl ha _ _).trans (by decide), (hC.2.2 _ a rfl ha _ _).trans (by decide)⟩

/-- A stored digest key has one `':'` between two colon-free fields, so it matches a looked-up
`user:realm` only for that very pair. -/
lemma digest_key_beq {fs : List GoString} {u : GoString} {p : GoString × GoString}
    (hfs : fs = split u ':') (hp : digestEntry fs = some p) (user realm : GoString) :
    (p.1 == user ++ ':' :: realm) = (fs.take 2 == [user, realm]) := by
  obtain ⟨a, b, rfl, hk⟩ := digestEntry_eq_some.mp hp
  have ha := not_mem_of_mem_split u ':' a (hfs ▸ List.mem_cons_self a _)
  have hb := not_mem_of_mem_split u ':' b (hfs ▸ List.mem_cons_of_mem a (List.mem_cons_self b _))
  rw [Bool.eq_iff_iff]
  simp [hk, List.append_cons_inj_of_not_mem ha hb]

theorem secretDigest_last_entry (readFile : GoString → Except GoError GoString) (digest : Digest) :
    (∀ e, digest.usersFile ≠ [] → readFile digest.usersFile = .error e →
      parserDigestUsers readFile digest = .error e) ∧
    ∀ lines, FileLines readFile digest.usersFile lines →
      ((∃ e, parserDigestUsers readFile digest = .error e) ↔
        ∃ u ∈ digest.users ++ lines, (split u ':').length ≠ 3) ∧
      (∀ cfg : Auth, cfg.basic = none → cfg.digest = some digest →
        ((∃ a, newAuthenticator readFile (some cfg) = .ok a) ↔
          ∀ u ∈ digest.users ++ lines, (split u ':').length = 3)) ∧
      ∀ (cfg : Auth) (a : Authenticator), cfg.basic = none → cfg.digest = some digest →
        newAuthenticator readFile (some cfg) = .ok a →
        ∀ user realm, a.secretDigest user realm = lastDigestSecret (digest.users ++ lines) user realm := by
  refine ⟨fun e hf he => parserUsers_read_error hf he,
    fun lines hl => ⟨?_, fun cfg hb hd => ?_, ?_⟩⟩
  · simp only [parserDigestUsers, parserUsers_error_iff hl, digestEntry_eq_none_iff]
  · simp only [newAuthenticator_digest_ok_iff hb hd, parserDigestUsers, parserUsers_ok_iff hl, ne_eq,
      digestEntry_eq_none_iff, not_not]
  · intro cfg a hb hd ha user realm
    have hp := (newAuthenticator_digest hb hd ha).1
    have hwf := parserUsers_ok_entry hl hp
    have hfind := find_filterMap_entry (fun fs => fs.take 2 == [user, realm]) (·.getD 2 [])
      (user ++ ':' :: realm) (digest.users ++ lines).reverse fun u hu => by
        obtain ⟨p, hp⟩ := hwf u (List.mem_reverse.mp hu)
        refine ⟨p, hp, digest_key_beq rfl hp user realm, ?_⟩
        obtain ⟨_, _, hfs, -⟩ := digestEntry_eq_some.mp hp
        simp [hfs]
    rw [Authenticator.secretDigest, secret_eq_getD, parserUsers_apply hl hp, hfind, lastDigestSecret]
    cases List.find? _ _ <;> rfl

/-- Alice is listed inline and again, padded, in a users file with a blank line: the file's
entry wins, another realm has no secret, and an entry with two fields fails the parse. -/
theorem alice_bob_digest_secrets :
    parserDigestUsers (fun _ => .error "open users: no such file".toList) ⟨[], "users".toList⟩ =
      .error "open users: no such file".toList ∧
    (∃ e, parserDigestUsers (fun _ => .ok "bob:traefik:y\n\n  alice:traefik:z \n".toList)
      ⟨["alice:traefik:x".toList, "carol:x".toList], "users".toList⟩ = .error e) ∧
    ∃ a, newAuthenticator (fun _ => .ok "bob:traefik:y\n\n  alice:traefik:z \n".toList)
        (some ⟨none, some ⟨["alice:traefik:x".toList], "users".toList⟩, []⟩) = .ok a ∧
      a.secretDigest "alice".toList realm = "z".toList ∧
      a.secretDigest "alice".toList "other".toList = [] := by
  have hA := (secretDigest_last_entry (fun _ => .error "open users: no such file".toList)
    ⟨[], "users".toList⟩).1 _ (by decide) rfl
  have hB := (secretDigest_last_entry (fun _ => .ok "bob:traefik:y\n\n  alice:traefik:z \n".toList)
    ⟨["alice:traefik:x".toList, "carol:x".toList], "users".toList⟩).2
      ["bob:traefik:y".toList, "alice:traefik:z".toList] (.inr ⟨by decide, rfl⟩)
  have hC := (secretDigest_last_entry (fun _ => .ok "bob:traefik:y\n\n  alice:traefik:z \n".toList)
    ⟨["alice:traefik:x".toList], "users".toList⟩).2
      ["bob:traefik:y".toList, "alice:traefik:z".toList] (.inr ⟨by decide, rfl⟩)
  obtain ⟨a, ha⟩ := (hC.2.1 ⟨none, some ⟨["alice:traefik:x".toList], "users".toList⟩, []⟩ rfl
    rfl).mpr (by decide)
  exact ⟨hA, hB.1.mpr ⟨"carol:x".toList, by decide, by decide⟩, a, ha,
    (hC.2.2 _ a rfl rfl ha _ _).trans (by decide), (hC.2.2 _ a rfl rfl ha _ _).trans (by decide)⟩

end Traefik
