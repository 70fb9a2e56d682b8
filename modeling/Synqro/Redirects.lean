import Synqro.Lib.Redirect
import Synqro.ManifestChecks

/-!
# Where the token goes

A `Request` of the engine is what it hands to its HTTP client; the client may answer a redirect with
another request. `exchange` is every request the client makes for one of the engine's, under the
downloader's redirect policy. The policy compares hosts, so no token leaves the host
(`exchange_confined`), but neither it nor anything before the first request asks for `https`.
-/

namespace Synqro

/-! ## The client -/

/-- A parsed URL. -/
structure Url where
  scheme : String
  hostStr : Option String
  /-- The port, where it is not the scheme's own. -/
  port : Option Nat
  /-- Path, query and fragment. -/
  rest : String
deriving DecidableEq

/-- The port of a scheme. -/
def defaultPort : String → Option Nat
  | "http" | "ws" => some 80
  | "https" | "wss" => some 443
  | "ftp" => some 21
  | _ => none

namespace Url

def portOrKnownDefault (u : Url) : Option Nat := u.port.or (defaultPort u.scheme)

/-- The client sends requests for these schemes. -/
def isHttp (u : Url) : Bool := u.scheme = "http" || u.scheme = "https"

/-- The host and the port. -/
def site (u : Url) : Option String × Option Nat := (u.hostStr, u.portOrKnownDefault)

end Url

namespace SynqroDownloader

/-- The policy that `new` gives the client. -/
def redirectPolicy (url : Url) (previous : List Url) : Redirect.Action :=
  let original := url
  match previous.getLast? with
  | some previous => if original.hostStr ≠ previous.hostStr then .stop else .follow
  | none => .follow

/-- The `Authorization` header is dropped where the host or the port changes. -/
def removeSensitiveHeaders (next previous : Url) (headers : List (String × String)) :
    List (String × String) :=
  if next.site = previous.site then headers else headers.filter (·.1 ≠ "Authorization")

def client : Redirect.Client Url (List (String × String)) where
  policy := redirectPolicy
  sends := Url.isHttp
  retarget := removeSensitiveHeaders

end SynqroDownloader

section
variable (parseUrl : String → Option Url)

/-- The URL of the first request for a text, if the client accepts it. -/
def startUrl (url : String) : Option Url :=
  (parseUrl url).filter fun u => u.hostStr.isSome && u.isHttp

/-- The requests the client makes for one of the engine's, when it is redirected to these
locations. -/
def exchange (request : Request) (locations : List Url) :
    List (Redirect.Hop Url (List (String × String))) :=
  match startUrl parseUrl request.url with
  | some u => SynqroDownloader.client.hops [] ⟨u, request.headers⟩ locations
  | none => []

end

/-- Whether the headers carry the token. -/
def carriesToken (headers : List (String × String)) : Bool := headers.any (·.1 = "Authorization")

/-- One of the redirects names `http` and the host and port of the first URL, and all before it
stay there under `https`. -/
def Downgrades (u : Url) (locations : List Url) : Prop :=
  ∃ before next later, locations = before ++ next :: later ∧
    (∀ l ∈ before, l.site = u.site ∧ l.scheme = "https") ∧ next.site = u.site ∧ next.scheme = "http"

namespace SynqroDownloader

theorem carriesToken_retarget (next previous : Url) (headers : List (String × String)) :
    carriesToken (client.retarget next previous headers) =
      (carriesToken headers && next.site = previous.site) := by
  have hretarget : client.retarget next previous headers =
    if next.site = previous.site then headers else headers.filter (·.1 ≠ "Authorization") := rfl
  rw [hretarget]
  split
  · next h => simp [h]
  · next h => simp [h, carriesToken]

theorem policy_site (next u : Url) (previous : List Url) (h : next.site = u.site) :
    client.policy next (previous ++ [u]) = .follow := by
  have hhost : next.hostStr = u.hostStr := congrArg Prod.fst h
  simp [client, redirectPolicy, hhost]

end SynqroDownloader

/-- The requests that carry the token stay on `https` and the first host exactly when the first URL
is an `https` one and no redirect downgrades it. -/
theorem exchange_confined {parseUrl : String → Option Url} {request : Request} {u : Url}
    (hstart : startUrl parseUrl request.url = some u) (htoken : carriesToken request.headers = true)
    (locations : List Url) :
    (∀ hop ∈ exchange parseUrl request locations, carriesToken hop.headers = true →
        hop.url.scheme = "https" ∧ hop.url.hostStr = u.hostStr) ↔
      u.scheme = "https" ∧ ¬ Downgrades u locations := by
  have hurls := @Redirect.Client.credential_urls _ _ _ SynqroDownloader.client []
    ⟨u, request.headers⟩ locations _ carriesToken _ SynqroDownloader.carriesToken_retarget
    SynqroDownloader.policy_site htoken
  have hmem (v : Url) : (∃ hop ∈ exchange parseUrl request locations,
      carriesToken hop.headers = true ∧ hop.url = v) ↔
      v ∈ u :: locations.takeWhile fun l => l.isHttp && l.site = u.site := by
    have hmap := congrArg (v ∈ ·) hurls
    simp only [List.mem_map, List.mem_filter, and_assoc, eq_iff_iff] at hmap
    rw [exchange, hstart]
    exact hmap
  have hall : (∀ hop ∈ exchange parseUrl request locations, carriesToken hop.headers = true →
      hop.url.scheme = "https" ∧ hop.url.hostStr = u.hostStr) ↔
      ∀ v ∈ u :: locations.takeWhile (fun l => l.isHttp && l.site = u.site),
        v.scheme = "https" ∧ v.hostStr = u.hostStr := by
    refine ⟨fun h v hv => ?_, fun h hop hhop hcarries =>
      h _ ((hmem _).1 ⟨hop, hhop, hcarries, rfl⟩)⟩
    obtain ⟨hop, hhop, hcarries, rfl⟩ := (hmem v).2 hv
    exact h hop hhop hcarries
  rw [hall, List.forall_mem_cons, and_iff_left (rfl : u.hostStr = u.hostStr)]
  refine and_congr_right fun _ => ?_
  have hhost : (∀ v ∈ locations.takeWhile (fun l => l.isHttp && l.site = u.site),
      v.scheme = "https" ∧ v.hostStr = u.hostStr) ↔
      ∀ v ∈ locations.takeWhile (fun l => l.isHttp && l.site = u.site),
        decide (v.scheme = "https") = true := by
    refine forall₂_congr fun v hv => ?_
    have hp := List.mem_takeWhile_imp hv
    have hsite : v.site = u.site := by simpa using (Bool.and_eq_true_iff.1 hp).2
    have hhost : v.hostStr = u.hostStr := congrArg Prod.fst hsite
    simp [hhost]
  rw [hhost, Redirect.forall_takeWhile, Downgrades]
  simp only [Url.isHttp, Bool.and_eq_true, Bool.or_eq_true, decide_eq_true_eq,
    decide_eq_false_iff_not]
  refine not_congr ⟨?_, ?_⟩
  · rintro ⟨before, next, later, he, hbefore, ⟨hhttp, hsite⟩, hscheme⟩
    exact ⟨before, next, later, he, fun l hl => ⟨(hbefore l hl).1.2, (hbefore l hl).2⟩, hsite,
      hhttp.resolve_right hscheme⟩
  · rintro ⟨before, next, later, he, hbefore, hsite, hscheme⟩
    exact ⟨before, next, later, he, fun l hl => ⟨⟨.inr (hbefore l hl).2, (hbefore l hl).1⟩,
      (hbefore l hl).2⟩, ⟨.inl hscheme, hsite⟩, by simp [hscheme]⟩

/-- The releases' API is asked over `https`. -/
theorem SynqroDownloader.manifestApiUrl_https (d : SynqroDownloader) :
    ∃ rest, d.manifestApiUrl = "https://" ++ rest := by
  have hapi : "https://api.github.com/repos/" = "https://" ++ "api.github.com/repos/" := by
    decide +kernel
  have happend (a b c : String) : s!"https://api.github.com/repos/{a}/{b}" ++ c =
      "https://" ++ ("api.github.com/repos/" ++ a ++ "/" ++ b ++ c) := by
    rw [← String.append_assoc, ← String.append_assoc, ← String.append_assoc, ← String.append_assoc,
      ← hapi]
    rfl
  exact ⟨_, happend _ _ _⟩

/-! ## The operations that load the token -/

/-- The request of an effect. -/
def Effect.request? : Effect → Option Request
  | .requested request => some request
  | _ => none

/-- An operation that loads the token and sends it to the URL it starts with. -/
inductive TokenOperation where
  | fetchManifestOnce
  | downloadArtifact (manifest : SynqroManifest) (stagingDir : UnixPath)

namespace TokenOperation

section
variable (E : Externals) (d : SynqroDownloader)

def run : TokenOperation → M Unit
  | .fetchManifestOnce => do
    let _ ← d.fetchManifestOnceAsync E
    return ()
  | .downloadArtifact manifest stagingDir => do
    let _ ← d.downloadAndVerifyArtifact E manifest stagingDir
    return ()

/-- The URL the operation starts with: the releases' API, or the one the manifest gives the artifact
for this platform. -/
def url : TokenOperation → Option String
  | .fetchManifestOnce => some d.manifestApiUrl
  | .downloadArtifact manifest _ =>
    (manifest.artifacts.find? (·.platform = currentPlatformTriple E)).map (·.url)

/-- The requests that a run hands to the client. -/
def requests (op : TokenOperation) (w : World) : List Request :=
  ((Comp.after (op.run E d) w).trace.drop w.trace.length).filterMap Effect.request?

/-- No request of a run carries the token over anything but `https` or to another host than the one
the operation started with. -/
def Confined (parseUrl : String → Option Url) (op : TokenOperation) (locations : List Url)
    (w : World) : Prop :=
  ∀ request ∈ op.requests E d w, ∀ hop ∈ exchange parseUrl request locations,
    carriesToken hop.headers = true → hop.url.scheme = "https" ∧
      ∃ u, startUrl parseUrl request.url = some u ∧ hop.url.hostStr = u.hostStr

/-- The manifest's URL for the artifact is an `https` one, and no redirect downgrades the URL the
operation starts with. -/
def Secure (parseUrl : String → Option Url) (op : TokenOperation) (locations : List Url) : Prop :=
  ∀ url u, op.url E d = some url → startUrl parseUrl url = some u →
    (op ≠ .fetchManifestOnce → u.scheme = "https") ∧ ¬ Downgrades u locations

end

section
variable {E : Externals} {d : SynqroDownloader}

/-- Every request is for the operation's URL and carries a token. -/
theorem requests_bears {op : TokenOperation} {w : World} {r : Request} (h : r ∈ op.requests E d w) :
    ∃ url, op.url E d = some url ∧ Request.Bears url r := by
  let Q : Effect → Prop := fun e => ∀ r, e.request? = some r →
    ∃ url, op.url E d = some url ∧ Request.Bears url r
  have hlocal (e : Effect) (he : e.Local) : Q e := by
    intro r hr
    cases e with
    | requested => exact he.elim
    | _ => cases hr
  have hrun : World.Evolves Q w (Comp.after (op.run E d) w) := by
    cases op with
    | fetchManifestOnce =>
      have hfetch := d.fetchManifestOnceAsync_evolves (E := E) hlocal fun r hr r' hr' => by
        cases hr'
        exact ⟨_, rfl, hr⟩
      exact Comp.Respects.bind hfetch (fun _ => .pure _) w
    | downloadArtifact manifest stagingDir =>
      have hdownload := d.downloadAndVerifyArtifact_evolves (E := E) hlocal manifest stagingDir
        (fun r hr => by cases hr)
        fun artifact r hfind hr r' hr' => by
          cases hr'
          exact ⟨artifact.url, by simp [url, hfind], hr⟩
      exact Comp.Respects.bind hdownload (fun _ => .pure _) w
  obtain ⟨new, htrace, hnew⟩ := hrun.trace
  rw [requests, htrace, List.drop_left, List.mem_filterMap] at h
  obtain ⟨e, he, hr⟩ := h
  exact hnew e he r hr

theorem bears_carriesToken {url : String} {r : Request} (h : Request.Bears url r) :
    carriesToken r.headers = true := by
  obtain ⟨token, htoken⟩ := h.token
  have hmem : ("Authorization", s!"Bearer {token}") ∈ r.headers :=
    (List.mem_filter.1 (htoken ▸ List.mem_singleton_self _)).1
  exact List.any_eq_true.2 ⟨_, hmem, rfl⟩

end

end TokenOperation

/-- **Token confinement.** The token of an operation that sends its request stays on `https` and on
the host the operation started with exactly when the URL of the artifact, if it is a download, is an
`https` one and no redirect downgrades the first request. -/
theorem tokenOperation_confined (E : Externals) (d : SynqroDownloader)
    (parseUrl : String → Option Url)
    (hparse : ∀ rest u, parseUrl ("https://" ++ rest) = some u → u.scheme = "https")
    (op : TokenOperation) (locations : List Url) (w : World) (hsent : op.requests E d w ≠ []) :
    op.Confined E d parseUrl locations w ↔ op.Secure E d parseUrl locations := by
  obtain ⟨r₀, hr₀⟩ := List.exists_mem_of_ne_nil _ hsent
  obtain ⟨url, hurl, hbears₀⟩ := TokenOperation.requests_bears hr₀
  -- every request of the operation is for its one URL
  have hbears (r : Request) (hr : r ∈ op.requests E d w) : Request.Bears url r := by
    obtain ⟨url', hurl', h⟩ := TokenOperation.requests_bears hr
    cases hurl.symm.trans hurl'
    exact h
  cases hstart : startUrl parseUrl url with
  | none =>
    -- the client refuses the URL
    refine iff_of_true (fun r hr hop hhop => ?_) fun url' u hurl' hu => ?_
    · rw [exchange, (hbears r hr).url, hstart] at hhop
      cases hhop
    · cases hurl.symm.trans hurl'
      cases hstart.symm.trans hu
  | some u =>
    have hsecure : op.Secure E d parseUrl locations ↔
        u.scheme = "https" ∧ ¬ Downgrades u locations := by
      have hfirst : op = .fetchManifestOnce → u.scheme = "https" := by
        rintro rfl
        cases hurl
        obtain ⟨rest, hrest⟩ := d.manifestApiUrl_https
        have hu := (Option.filter_eq_some_iff.1 hstart).1
        exact hparse rest u (hrest ▸ hu)
      refine ⟨fun h => ?_, fun h url' u' hurl' hu' => ?_⟩
      · obtain ⟨hscheme, hdown⟩ := h url u hurl hstart
        exact ⟨(em (op = .fetchManifestOnce)).elim hfirst hscheme, hdown⟩
      · cases hurl.symm.trans hurl'
        cases hstart.symm.trans hu'
        exact ⟨fun _ => h.1, h.2⟩
    have hone (r : Request) (hr : r ∈ op.requests E d w) :
        (∀ hop ∈ exchange parseUrl r locations, carriesToken hop.headers = true →
          hop.url.scheme = "https" ∧
            ∃ u, startUrl parseUrl r.url = some u ∧ hop.url.hostStr = u.hostStr) ↔
          u.scheme = "https" ∧ ¬ Downgrades u locations := by
      have hu : startUrl parseUrl r.url = some u := by rw [(hbears r hr).url, hstart]
      rw [← exchange_confined hu (TokenOperation.bears_carriesToken (hbears r hr)) locations]
      simp [hu]
    rw [hsecure]
    exact ⟨fun h => (hone r₀ hr₀).1 (h r₀ hr₀), fun h r hr => (hone r hr).2 h⟩

/-! ## A cleartext URL in a signed manifest -/

/-- Reads the URLs of a plain form: a scheme, a host, a port and a path. -/
def plainUrl (s : String) : Option Url :=
  let plain (scheme : String) (rest : List Char) : Option Url :=
    let (authority, path) := rest.span (· ≠ '/')
    let (host, port) := authority.span (· ≠ ':')
    some ⟨scheme, some (.ofList host),
      if port = [] then none else some (Nat.ofDigitChars 10 port.tail 0), .ofList path⟩
  match s.toList with
  | 'h' :: 't' :: 't' :: 'p' :: 's' :: ':' :: '/' :: '/' :: rest => plain "https" rest
  | 'h' :: 't' :: 't' :: 'p' :: ':' :: '/' :: '/' :: rest => plain "http" rest
  | _ => none

theorem plainUrl_https (rest : String) (u : Url) (h : plainUrl ("https://" ++ rest) = some u) :
    u.scheme = "https" := by
  have hscheme : ("https://" ++ rest).toList =
      'h' :: 't' :: 't' :: 'p' :: 's' :: ':' :: '/' :: '/' :: rest.toList := by
    rw [String.toList_append]
    rfl
  unfold plainUrl at h
  rw [hscheme] at h
  cases h
  rfl

/-- The manifest of version 10.0.0 with the artifact at a cleartext URL. -/
def cleartextManifest : SynqroManifest :=
  { releaseManifest with
    artifacts := [{ releaseArtifact with url := "http://example.org/app" }]
    manifestSigEd25519 :=
      "Qy7RDFlW0h7kX0PHDV3r5Spj5eJBSCWuaD1wtdB4L0nEzBTS3J0sRNZ5QJ5cKNrIL86RnFdRccm+uCwfStHcCg==" }

/-- Its body. -/
def cleartextBody : Bytes :=
  utf8 "\x7b\"artifacts\":[\x7b\"platform\":\"linux-x86_64\",\"sha256\":\"" ++
    utf8 "6a7dc6f4267242f01f6636a45c31da51c036da1e9879abce7e1d0aaa76aad876\",\"sha512\":\"" ++
    utf8 "c3b2b8739b5c52ac7c0eef3d7ccd4e314726a107e43e42fe0dfc7cd23bb6a5f2" ++
    utf8 "72e6645bf8d1e472e03d9a62090396f5eb6f8f11a47c6483a52062647b29a18e\"," ++
    utf8 "\"sig_ed25519\":\"" ++ utf8 artifactSignature ++
    utf8 "\",\"size_bytes\":3,\"url\":\"http://example.org/app\"\x7d],\"channel\":\"stable\"," ++
    utf8 "\"issued_at\":\"2026-01-01T00:00:00Z\",\"schema_version\":\"1\"," ++
    utf8 "\"version\":\"10.0.0\",\"manifest_sig_ed25519\":\"" ++
    utf8 cleartextManifest.manifestSigEd25519 ++ utf8 "\"\x7d"

/-- Externals that know the signature of that manifest as the release key's. -/
def Externals.knowingCleartext : Externals :=
  { Externals.release with
    verifyStrict := fun key message signature =>
      if Base64.decode releaseKeyText = some key ∧
          Base64.decode cleartextManifest.manifestSigEd25519 = some signature then
        .ok ()
      else Externals.release.verifyStrict key message signature }

/-- The runs of this section, evaluated once: a download of the release sends a request, the
manifest with the cleartext URL is verified, and its download sends the token there. -/
theorem downloads_evaluated :
    TokenOperation.requests .release releaseClient
        (.downloadArtifact releaseManifest (.ofString "/")) artifactServed ≠ [] ∧
      (match releaseClient.fetchManifestOnceAsync .knowingCleartext
          (receiving cleartextBody releaseIssued) with
        | .ok m _ => decide (m = cleartextManifest)
        | .error _ _ => false) = true ∧
      ∃ request ∈ TokenOperation.requests .knowingCleartext releaseClient
          (.downloadArtifact cleartextManifest (.ofString "/")) artifactServed,
        ∃ hop ∈ exchange plainUrl request [], carriesToken hop.headers = true ∧
          hop.url.scheme ≠ "https" := by
  decide +kernel

/-- The request of a download of the release goes to one `https` URL. -/
theorem tokenOperation_confined_release :
    TokenOperation.Confined .release releaseClient plainUrl
      (.downloadArtifact releaseManifest (.ofString "/")) [] artifactServed ↔
      TokenOperation.Secure .release releaseClient plainUrl
        (.downloadArtifact releaseManifest (.ofString "/")) [] := by
  refine tokenOperation_confined .release releaseClient plainUrl plainUrl_https _ _ _
    downloads_evaluated.1

/-- The manifest is verified, and the token goes to its cleartext URL. -/
theorem tokenOperation_cleartext :
    (∃ w, releaseClient.fetchManifestOnceAsync .knowingCleartext
        (receiving cleartextBody releaseIssued) = .ok cleartextManifest w) ∧
      ¬ TokenOperation.Confined .knowingCleartext releaseClient plainUrl
        (.downloadArtifact cleartextManifest (.ofString "/")) [] artifactServed := by
  obtain ⟨-, hfetch, request, hrequest, hop, hhop, hcarries, hscheme⟩ := downloads_evaluated
  refine ⟨?_, fun hconfined => hscheme (hconfined request hrequest hop hhop hcarries).1⟩
  split at hfetch
  · next m w hok =>
    rw [of_decide_eq_true hfetch] at hok
    exact ⟨w, hok⟩
  · cases hfetch

end Synqro
