import Traefik.Authenticator

/-!
# Serving a request

`ServeHTTP` calls the handler closure. On an accepted request the closure assigns
`r.Header[HeaderField] = []string{username}`: the key is the configured field as written, so
the client's own values for that header are replaced only where the client's key, which
net/http has put in canonical form, is that same string.
-/

namespace Traefik

/-- The user name the authenticator's check returns for `r`, `""` without a handler. -/
def Authenticator.checkAuth (lib : HttpAuth) (a : Authenticator) (r : Request) : GoString :=
  match a.handler with
  | some h => h.checkAuth lib a r
  | none => []

section Serve

variable {lib : HttpAuth} {a : Authenticator} {r r' : Request}

/-- What a call that reaches `next` did to the request. -/
lemma serveHTTP_next (h : a.serveHTTP lib r = .next r') :
    ∃ hd, a.handler = some hd ∧ a.checkAuth lib r ≠ [] ∧
      r' = if hd.headerField ≠ [] then
        { r with header := put r.header hd.headerField [a.checkAuth lib r] } else r := by
  unfold Authenticator.serveHTTP at h
  split at h
  · cases h
  · next hd hh =>
    simp only [Handler.serveHTTP] at h
    refine ⟨hd, hh, ?_⟩
    simp only [Authenticator.checkAuth, hh]
    split at h
    · cases h
    · split at h <;> simp_all

/-- net/http hands a handler a canonically keyed header; the request `next` receives keeps that
invariant exactly when the header field is in canonical form. -/
theorem serveHTTP_canonicallyKeyed_iff {readFile : GoString → Except GoError GoString}
    {cfg : Auth} (ha : newAuthenticator readFile (some cfg) = .ok a) (lib : HttpAuth)
    (method requestURI : GoString) (fields : List (GoString × GoString)) {r' : Request}
    (h : a.serveHTTP lib ⟨method, requestURI, readMIMEHeader fields⟩ = .next r') :
    CanonicallyKeyed r'.header ↔ canonicalMIMEHeaderKey cfg.headerField = cfg.headerField := by
  obtain ⟨hd, hh, -, rfl⟩ := serveHTTP_next h
  rw [newAuthenticator_headerField ha hh]
  have hr := canonicallyKeyed_readMIMEHeader fields
  by_cases hf : cfg.headerField = []
  · simp only [hf, ne_eq, not_true_eq_false, if_false]
    exact ⟨fun _ => rfl, fun _ => hr⟩
  · simp only [ne_eq, hf, not_false_eq_true, if_true]
    exact ⟨fun hk => hk _ _ (put_self _ _ _), canonicallyKeyed_put _ hr⟩

end Serve

/-- With the field configured as `X-WebAuth-User`, even a request without headers reaches
`next` with a header that is not canonically keyed. -/
theorem webauth_field_breaks_canonical_keys :
    ∃ r', (⟨some ⟨.basic, "X-WebAuth-User".toList⟩, put (fun _ => none) "alice".toList "x".toList⟩ :
        Authenticator).serveHTTP ⟨fun _ _ _ => "alice".toList, fun _ _ _ => []⟩
        ⟨"GET".toList, "/".toList, readMIMEHeader []⟩ = .next r' ∧ ¬CanonicallyKeyed r'.header := by
  have ha : newAuthenticator (fun _ => .error [])
      (some ⟨some ⟨["alice:x".toList], []⟩, none, "X-WebAuth-User".toList⟩) =
        .ok ⟨some ⟨.basic, "X-WebAuth-User".toList⟩, put (fun _ => none) "alice".toList "x".toList⟩ :=
    rfl
  exact ⟨_, rfl, fun hk => absurd ((serveHTTP_canonicallyKeyed_iff ha
    ⟨fun _ _ _ => "alice".toList, fun _ _ _ => []⟩ "GET".toList "/".toList [] rfl).mp hk)
    (by decide)⟩

end Traefik
