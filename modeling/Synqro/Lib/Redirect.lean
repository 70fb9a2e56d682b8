import Mathlib.Data.List.TakeWhile

/-!
# Clients that follow redirects

`Redirect.Client` is a client that asks a policy at every redirect. `Client.hops` are the requests
it makes for one request, along the locations it is redirected to, each with the headers it carries.
`hops_induction` is the rule for what holds of every hop; `credential_urls` says which hops still
carry a credential when a key of the URL (an origin, a host) decides both whether the redirect is
followed and whether the credential is kept.
-/

namespace Redirect

/-- What a policy says of a redirect. -/
inductive Action where
  | follow
  | stop
deriving DecidableEq

/-- One request of a chain. -/
structure Hop (U H : Type) where
  url : U
  headers : H
deriving DecidableEq

/-- A client that follows redirects under a policy. -/
structure Client (U H : Type) where
  /-- The policy on a URL and the ones requested before. -/
  policy : U → List U → Action
  /-- Whether a request to the URL can be sent. -/
  sends : U → Bool
  /-- The headers for the next URL, from those for the previous one. -/
  retarget : U → U → H → H

section
variable {U H K : Type}

/-- The requests made from a hop on while the redirects lead to the given locations. -/
def Client.hops (c : Client U H) (previous : List U) (hop : Hop U H) : List U → List (Hop U H)
  | [] => [hop]
  | next :: later =>
    match c.policy next (previous ++ [hop.url]) with
    | .stop => [hop]
    | .follow =>
      if c.sends next then
        hop :: hops c (previous ++ [hop.url]) ⟨next, c.retarget next hop.url hop.headers⟩ later
      else [hop]

namespace Client

variable {c : Client U H} {previous : List U} {hop : Hop U H} {locations : List U}

/-- What the first hop satisfies and a followed redirect keeps is true of every hop. -/
theorem hops_induction {P : Hop U H → Prop} (hstart : P hop)
    (hfollow : ∀ previous hop next, P hop → c.policy next (previous ++ [hop.url]) = .follow →
      P ⟨next, c.retarget next hop.url hop.headers⟩) :
        ∀ h ∈ c.hops previous hop locations, P h := by
  induction locations generalizing previous hop with
  | nil => simpa [hops] using hstart
  | cons next later ih =>
    intro h hh
    unfold hops at hh
    split at hh
    · simp only [List.mem_singleton] at hh
      exact hh ▸ hstart
    · next hpolicy =>
      split at hh
      · rcases List.mem_cons.1 hh with rfl | hh
        · exact hstart
        · exact ih (hfollow _ _ _ hstart hpolicy) h hh
      · simp only [List.mem_singleton] at hh
        exact hh ▸ hstart

variable [DecidableEq K] {carries : H → Bool} {key : U → K}

/-- A credential that was dropped does not come back. -/
theorem no_credential (hkeep : ∀ next previous headers,
      carries (c.retarget next previous headers) = (carries headers && key next = key previous))
    (hdropped : carries hop.headers = false) :
    (c.hops previous hop locations).filter (carries ·.headers) = [] := by
  rw [List.filter_eq_nil_iff]
  have hnever := @hops_induction _ _ c previous hop locations
    (fun h => carries h.headers = false) hdropped fun _ hop next h _ => by rw [hkeep, h]; rfl
  intro h hh
  simp [hnever h hh]

/-- The URLs requested with the credential: the first one and, up to the first location with another
key, those redirected to. -/
theorem credential_urls (hkeep : ∀ next previous headers,
      carries (c.retarget next previous headers) = (carries headers && key next = key previous))
    (hpolicy : ∀ next u previous, key next = key u → c.policy next (previous ++ [u]) = .follow)
    (hcarries : carries hop.headers = true) :
    ((c.hops previous hop locations).filter (carries ·.headers)).map Hop.url =
      hop.url :: locations.takeWhile fun l => c.sends l && key l = key hop.url := by
  induction locations generalizing previous hop with
  | nil => simp [hops, hcarries]
  | cons next later ih =>
    by_cases hkey : key next = key hop.url
    · -- the redirect is followed with the credential
      have hnext := hkeep next hop.url hop.headers
      rw [hcarries, Bool.true_and, decide_eq_true hkey] at hnext
      unfold hops
      rw [hpolicy next hop.url previous hkey]
      by_cases hsends : c.sends next = true
      · simp only [hsends, if_true, List.filter_cons, hcarries, List.map_cons]
        rw [ih hnext, List.takeWhile_cons]
        simp [hsends, hkey]
      · simp [hsends, hcarries]
    · -- the chain ends, or goes on without it
      have hnext := hkeep next hop.url hop.headers
      rw [decide_eq_false hkey, Bool.and_false] at hnext
      have hrest := @no_credential _ _ _ c (previous ++ [hop.url]) ⟨next, _⟩ later _ _ _ hkeep
        hnext
      unfold hops
      split
      · simp [hcarries, hkey]
      · split
        · simp [hcarries, hkey, hrest]
        · simp [hcarries, hkey]

end Client

end

/-- All of an initial segment satisfies `q`, or `q` fails first at an element that still belongs
to it. -/
theorem forall_takeWhile {U : Type} {p q : U → Bool} {l : List U} :
    (∀ x ∈ l.takeWhile p, q x = true) ↔
      ¬ ∃ before x later, l = before ++ x :: later ∧ (∀ y ∈ before, p y = true ∧ q y = true) ∧
        p x = true ∧ q x = false := by
  induction l with
  | nil => simp
  | cons a l ih =>
    rw [List.takeWhile_cons]
    split
    · next hp =>
      by_cases hq : q a = true
      · rw [List.forall_mem_cons, ih]
        refine ⟨fun ⟨_, hnone⟩ => ?_, fun hnone => ⟨hq, ?_⟩⟩
        · rintro ⟨before, x, later, he, hbefore, hx, hqx⟩
          cases before with
          | nil =>
            cases he
            exact absurd hq (by simp [hqx])
          | cons b before =>
            cases he
            exact hnone ⟨before, x, later, rfl, fun y hy => hbefore y (.tail _ hy), hx, hqx⟩
        · rintro ⟨before, x, later, rfl, hbefore, hx⟩
          exact hnone ⟨a :: before, x, later, rfl, List.forall_mem_cons.2 ⟨⟨hp, hq⟩, hbefore⟩, hx⟩
      · refine iff_of_false (fun h => hq (h a (.head _))) fun hnone => hnone ?_
        exact ⟨[], a, l, rfl, nofun, hp, by simpa using hq⟩
    · next hp =>
      refine iff_of_true nofun ?_
      rintro ⟨before, x, later, he, hbefore, hx, -⟩
      cases before with
      | nil =>
        cases he
        exact hp hx
      | cons b before =>
        obtain ⟨rfl, -⟩ := List.cons.inj he
        exact hp (hbefore _ (.head _)).1

end Redirect
