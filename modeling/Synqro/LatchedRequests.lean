import Synqro.Lib.Streak
import Synqro.ArtifactErrors

/-!
# No request after the latch

The degraded mode is tested at the beginning of a fetch and of a download, and set inside the retry
loop, which goes on with the attempts it has left. `DownloaderRun` is a run of fetches and downloads
on one downloader; `downloaderRun_latched` says that no request follows the fifth consecutive
failure in a run in which every retry loop is over by then (`SynqroDownloader.InTime`) and every
failed download is counted.
-/

namespace Synqro

open World (Aside)

/-! ## Histories -/

/-- The outcomes of the attempts of a history. -/
def outcomes (history : List Mark) : List Bool :=
  history.filterMap fun m => match m with
    | .attempt succeeded => some succeeded
    | .request => none

/-- Five consecutive attempts have failed. -/
def FiveFailed (history : List Mark) : Prop := List.replicate 5 false <:+: outcomes history

/-- No request was sent after five consecutive failures. -/
def NoRequestAfterFive (history : List Mark) : Prop :=
  ∀ before later, history = before ++ .request :: later → ¬ FiveFailed before

theorem noRequestAfterFive_snoc {h : List Mark} {m : Mark} :
    NoRequestAfterFive (h ++ [m]) ↔ NoRequestAfterFive h ∧ (m = .request → ¬ FiveFailed h) := by
  constructor
  · intro hn
    refine ⟨fun before later he => hn before (later ++ [m]) (by simp [he]), ?_⟩
    rintro rfl
    exact hn h [] rfl
  · rintro ⟨hn, hm⟩ before later he
    rcases List.eq_nil_or_concat later with rfl | ⟨later', x, rfl⟩
    · obtain ⟨rfl, hx⟩ := List.append_inj' he rfl
      exact hm (List.singleton_inj.1 hx)
    · rw [List.concat_eq_append, ← List.cons_append, ← List.append_assoc] at he
      exact hn before later' (List.append_inj' he rfl).1

/-- What the latch knows of a history: no request followed five failures, and while the latch is
open the counter is the streak of failures. -/
structure Watched (h : List Mark) (l : Latch) : Prop where
  quiet : NoRequestAfterFive h
  streak : l.degradedMode = false →
    List.Streak false l.consecutiveFailures.toNat (outcomes h) ∧
      l.consecutiveFailures.toNat < 5 ∧ ¬ FiveFailed h

namespace Watched

variable {h : List Mark} {l : Latch}

theorem start : Watched [] ⟨0, false⟩ := by
  refine ⟨fun before later he => ?_, fun _ => ⟨.nil, by decide, by simp [FiveFailed, outcomes]⟩⟩
  cases before <;> cases he

/-- A request while the latch is open. -/
theorem request (hw : Watched h l) (hopen : l.degradedMode = false) :
    Watched (h ++ [.request]) l := by
  have hout : outcomes (h ++ [.request]) = outcomes h := by simp [outcomes]
  obtain ⟨hs, hc, hf⟩ := hw.streak hopen
  refine ⟨noRequestAfterFive_snoc.2 ⟨hw.quiet, fun _ => hf⟩, fun _ => ?_⟩
  rw [FiveFailed, hout]
  exact ⟨hs, hc, hf⟩

/-- A failure while the latch is open. -/
theorem failure (hw : Watched h l) (hopen : l.degradedMode = false) :
    Watched (h ++ [.attempt false]) l.failed ∧
      l.failed.consecutiveFailures.toNat = l.consecutiveFailures.toNat + 1 ∧
      (l.consecutiveFailures.toNat < 4 → l.failed.degradedMode = false) := by
  have hout : outcomes (h ++ [.attempt false]) = outcomes h ++ [false] := by simp [outcomes]
  obtain ⟨hs, hc, hf⟩ := hw.streak hopen
  have hcount : l.failed.consecutiveFailures.toNat = l.consecutiveFailures.toNat + 1 := by
    show (l.consecutiveFailures + 1).toNat = _
    rw [UInt32.toNat_add]
    exact Nat.mod_eq_of_lt (by simp; omega)
  have hsucc : saturatingSucc l.consecutiveFailures = l.consecutiveFailures + 1 := by
    refine if_neg fun he => ?_
    rw [he] at hc
    exact absurd hc (by decide)
  have hlatch : l.failed.degradedMode = decide (4 ≤ l.consecutiveFailures.toNat) := by
    show (l.degradedMode || decide (5 ≤ saturatingSucc l.consecutiveFailures)) = _
    rw [hopen, hsucc, Bool.false_or, decide_eq_decide, UInt32.le_iff_toNat_le]
    have : (l.consecutiveFailures + 1).toNat = l.consecutiveFailures.toNat + 1 := hcount
    rw [this]
    exact Nat.succ_le_succ_iff
  refine ⟨⟨noRequestAfterFive_snoc.2 ⟨hw.quiet, nofun⟩, fun hstill => ?_⟩, hcount, fun hlt => ?_⟩
  · rw [hlatch, decide_eq_false_iff_not] at hstill
    rw [FiveFailed, hout, hcount]
    exact ⟨hs.snoc, by omega, List.not_run_snoc hf hs (by omega)⟩
  · rw [hlatch, decide_eq_false_iff_not]
    omega

/-- A success while the latch is open. -/
theorem success (hw : Watched h l) (hopen : l.degradedMode = false) :
    Watched (h ++ [.attempt true]) { l with consecutiveFailures := 0 } := by
  have hout : outcomes (h ++ [.attempt true]) = outcomes h ++ [true] := by simp [outcomes]
  obtain ⟨-, -, hf⟩ := hw.streak hopen
  refine ⟨noRequestAfterFive_snoc.2 ⟨hw.quiet, nofun⟩, fun _ => ?_⟩
  rw [FiveFailed, hout]
  exact ⟨.snoc_ne nofun, Nat.succ_pos 4, List.not_run_snoc_ne hf nofun⟩

end Watched

/-! ## Attempts -/

namespace SynqroDownloader

section
variable (E : Externals) (d : SynqroDownloader)

/-- The world before attempt `i` of a retry loop whose earlier attempts have failed. -/
def attemptWorld : Nat → World → World
  | 0, w => w
  | i + 1, w => attemptWorld i
      (Comp.after (d.recordFailure E) (Comp.after (d.fetchManifestOnceAsync E) w))

/-- Attempt `i` of a retry loop succeeds, after failures. -/
def Succeeds (i : Nat) (w : World) : Prop :=
  Comp.returned (d.fetchManifestOnceAsync E (d.attemptWorld E i w)) = true

/-- A retry loop with `n` attempts left is over when the fifth consecutive failure has come: there
are no more attempts than failures to go, or one of these attempts succeeds. -/
def LoopInTime (n : Nat) (w : World) : Prop :=
  w.latch.consecutiveFailures.toNat + n ≤ 5 ∨
    ∃ i, w.latch.consecutiveFailures.toNat + i < 5 ∧ d.Succeeds E i w

end

section
variable {E : Externals} {d : SynqroDownloader} {w w' : World}

/-- One request was sent, or none. -/
def OneRequest (w w' : World) : Prop := Aside w w' ∨ Sent w w'

theorem OneRequest.aside {v : World} (h : OneRequest w v) (h' : Aside v w') : OneRequest w w' :=
  h.imp (fun h => IsTrans.trans _ _ _ h h') fun h => h.aside h'

theorem oneRequest_bind {α β : Type} {x : M α} {f : α → M β} (hx : OneRequest w (Comp.after x w))
    (hf : ∀ a, Comp.Respects Aside (f a)) : OneRequest w (Comp.after (x >>= f) w) := by
  cases h : x w with
  | ok a v =>
    rw [Comp.after, h] at hx
    rw [Comp.after_bind_ok h]
    exact hx.aside (hf a v)
  | error e v =>
    rw [Comp.after, h] at hx
    rwa [Comp.after_bind_error h]

theorem aside_bind {α β : Type} {x : M α} {f : α → M β} (hx : Comp.Respects Aside x)
    (hf : ∀ a v, OneRequest v (Comp.after (f a) v)) : OneRequest w (Comp.after (x >>= f) w) := by
  cases h : x w with
  | ok a v =>
    have hv := hx.ok h
    rw [Comp.after_bind_ok h]
    refine (hf a v).imp (fun h => IsTrans.trans _ _ _ hv h) fun h => ⟨?_, ?_⟩
    · rw [h.latch, hv.latch]
    · rw [h.marks, hv.marks]
  | error e v =>
    rw [Comp.after_bind_error h]
    exact .inl (hx.error h)

/-- An attempt sends one request at most, and does not end. -/
theorem fetchManifestOnceAsync_oneRequest (d : SynqroDownloader) (w : World) :
    OneRequest w (Comp.after (d.fetchManifestOnceAsync E) w) := by
  refine oneRequest_bind ?_ fun rawBytes => ?_
  · refine aside_bind loadTokenForRequest_aside fun token v => ?_
    refine aside_bind (failIf_aside _) fun _ v => .inr ?_
    exact send_bind_sent (fun _ => .bind (failIf_aside _) fun _ => .bind (failIf_aside _) fun _ =>
      .ofExcept _) v
  · refine .bind (.ofExcept _) fun rawValue => .bind ?_ fun _ => .bind ?_ fun _ => ?_
    · exact .bind (.ofExcept _) fun _ => .bind (.ofExcept _) fun _ => .bind (fun w => .tick w)
        fun _ => failIf_aside _
    · refine .bind (.ofExcept _) fun _ => .bind (.ofExcept _) fun _ =>
        .bind (.ofExcept _) fun _ => ?_
      exact .bind (.ofExcept _) fun _ => .onError (.ofExcept _) fun _ =>
        .bind (.ignore (AuditLogger.log_aside E d.audit _ _)) fun _ => .pure _
    · refine .bind (.ignore (AuditLogger.log_aside E d.audit _ _)) fun _ => .bind (.ofExcept _) ?_
      refine fun manifest => .bind ?_ fun _ => .pure _
      unfold checkInstallationId
      split
      · split
        · exact .throw _
        · exact .pure _
      · exact .pure _

/-- What an attempt adds to a history that is watched. -/
theorem watched_oneRequest {h : List Mark} {v : World} (hone : OneRequest w v)
    (hw : Watched h w.latch) (hopen : w.latch.degradedMode = false) :
    ∃ sent, marks v.trace = marks w.trace ++ sent ∧ Watched (h ++ sent) v.latch := by
  rcases hone with haside | hsent
  · exact ⟨[], by rw [haside.marks, List.append_nil], by rwa [haside.latch, List.append_nil]⟩
  · exact ⟨[.request], hsent.marks, hsent.latch ▸ hw.request hopen⟩

theorem OneRequest.latch {v : World} (h : OneRequest w v) : v.latch = w.latch := by
  rcases h with h | h <;> exact h.latch

/-- The retry loop keeps the watch when it is over in time. -/
theorem fetchAttempts_watched {h : List Mark} {n : Nat} {lastErr : SynqroError}
    (hw : Watched h w.latch) (hopen : w.latch.degradedMode = false) (hn : d.LoopInTime E n w) :
    ∃ new, marks (Comp.after (d.fetchAttempts E lastErr n) w).trace = marks w.trace ++ new ∧
      Watched (h ++ new) (Comp.after (d.fetchAttempts E lastErr n) w).latch := by
  induction n generalizing w h lastErr with
  | zero => exact ⟨[], (List.append_nil _).symm, by rwa [List.append_nil]⟩
  | succ n ih =>
    have hone := fetchManifestOnceAsync_oneRequest (E := E) d w
    obtain ⟨sent, hmarks, hw₁⟩ := watched_oneRequest hone hw hopen
    have hlatch := hone.latch
    cases hx : d.fetchManifestOnceAsync E w with
    | ok m w₁ =>
      rw [Comp.after, hx, Comp.final_ok] at hmarks hw₁ hlatch
      have hrun : (Comp.outcome (d.fetchManifestOnceAsync E) : M _) w = .ok (.ok m) w₁ :=
        Comp.outcome_ok.2 (.inl ⟨m, rfl, hx⟩)
      have hafter : Comp.after (d.fetchAttempts E lastErr (n + 1)) w =
          (w₁.setLatch { w₁.latch with consecutiveFailures := 0 }).emit (.attempted true) :=
        Comp.after_bind_ok hrun
      refine ⟨sent ++ [.attempt true], ?_, ?_⟩
      · rw [hafter, World.emit_trace, World.setLatch_trace, marks_append, hmarks, List.append_assoc]
        rfl
      · rw [hafter, ← List.append_assoc]
        exact hw₁.success (by rw [hlatch]; exact hopen)
    | error e w₁ =>
      rw [Comp.after, hx, Comp.final_error] at hmarks hw₁ hlatch
      have hrun : (Comp.outcome (d.fetchManifestOnceAsync E) : M _) w = .ok (.error e) w₁ :=
        Comp.outcome_ok.2 (.inr ⟨e, rfl, hx⟩)
      obtain ⟨w₂, hrecord, hcounted⟩ := recordFailure_counted (E := E) d w₁
      have hafter : Comp.after (d.fetchAttempts E lastErr (n + 1)) w =
          Comp.after (d.fetchAttempts E e n) w₂ :=
        (Comp.after_bind_ok hrun).trans (Comp.after_bind_ok hrecord)
      have hopen₁ : w₁.latch.degradedMode = false := by rw [hlatch]; exact hopen
      obtain ⟨hw₂, hcount, hstill⟩ := hw₁.failure hopen₁
      rw [← hcounted.latch] at hw₂ hcount hstill
      have hnext : d.attemptWorld E 1 w = w₂ := by
        simp only [attemptWorld, Comp.after, hx, Comp.final_error, hrecord, Comp.final_ok]
      have hc : w₁.latch.consecutiveFailures.toNat = w.latch.consecutiveFailures.toNat := by
        rw [hlatch]
      have hlt := (hw.streak hopen).2.1
      -- the first attempt has failed, so one of the later ones is the one in time
      have hn₂ : d.LoopInTime E n w₂ := by
        rcases hn with hn | ⟨i, hi, hsucceeds⟩
        · exact .inl (by omega)
        · cases i with
          | zero =>
            rw [Succeeds, attemptWorld, hx] at hsucceeds
            cases hsucceeds
          | succ i =>
            refine .inr ⟨i, by omega, ?_⟩
            rwa [← hnext]
      obtain ⟨new, hnew, hwatched⟩ : ∃ new, marks (Comp.after (d.fetchAttempts E e n) w₂).trace =
          marks w₂.trace ++ new ∧ Watched (h ++ sent ++ [.attempt false] ++ new)
            (Comp.after (d.fetchAttempts E e n) w₂).latch := by
        by_cases hfew : w₁.latch.consecutiveFailures.toNat < 4
        · exact ih hw₂ (hstill hfew) hn₂
        · -- the fifth failure was the last attempt
          have hzero : n = 0 := by
            rcases hn₂ with hn₂ | ⟨i, hi, -⟩ <;> omega
          subst hzero
          exact ⟨[], (List.append_nil _).symm, by rwa [List.append_nil]⟩
      refine ⟨sent ++ [.attempt false] ++ new, ?_, ?_⟩
      · rw [hafter, hnew, hcounted.marks, hmarks]
        simp only [List.append_assoc]
      · rw [hafter]
        simpa only [List.append_assoc] using hwatched

end

end SynqroDownloader

/-! ## Runs of calls -/

/-- A call on a downloader. -/
inductive DownloaderCall where
  | fetch
  | download (manifest : SynqroManifest) (stagingDir : UnixPath)

namespace DownloaderCall

section
variable (E : Externals) (d : SynqroDownloader)

def run : DownloaderCall → M Unit
  | .fetch => do
    let _ ← d.fetchAndVerifyManifest E
    return ()
  | .download manifest stagingDir => do
    let _ ← d.downloadAndVerifyArtifact E manifest stagingDir
    return ()

/-- What a call adds to the history: a fetch the requests and outcomes of its attempts, a download
that sends its request that request and its own outcome. -/
def history (w : World) : DownloaderCall → List Mark
  | .fetch => (marks (Comp.after (run E d .fetch) w).trace).drop (marks w.trace).length
  | .download manifest stagingDir =>
    if requestCount w.trace <
      requestCount (Comp.after (run E d (.download manifest stagingDir)) w).trace
    then [.request, .attempt (Comp.returned (d.downloadAndVerifyArtifact E manifest stagingDir w))]
    else []

/-- The condition on a call: the retry loop of a fetch that is not refused is over when the fifth
consecutive failure has come, and a download that fails once its request has been sent does so at an
exit that is counted. -/
def InTime (w : World) : DownloaderCall → Prop
  | .fetch =>
    w.latch.degradedMode = true ∨ d.LoopInTime E (d.updateConfig.maxRetries.toNat + 1) w.tick
  | .download manifest stagingDir => ∀ artifact token w₀ e w',
    d.prepareDownload E manifest w = .ok (artifact, token) w₀ →
    d.downloadAndVerifyArtifact E manifest stagingDir w = .error e w' →
    ∃ v, SynqroDownloader.CountedExit E d (stagingPath E stagingDir) artifact token w₀ v

end

section
variable {E : Externals} {d : SynqroDownloader} {w : World} {h : List Mark}

theorem fetch_watched (hw : Watched h w.latch) (hin : InTime E d w .fetch) :
    Watched (h ++ history E d w .fetch) (Comp.after (run E d .fetch) w).latch := by
  have hafter : Comp.after (run E d .fetch) w = Comp.after (d.fetchAndVerifyManifest E) w :=
    Comp.after_bind_pure _ _ _
  obtain ⟨new, hmarks, hwatched⟩ : ∃ new,
      marks (Comp.after (d.fetchAndVerifyManifest E) w).trace = marks w.trace ++ new ∧
        Watched (h ++ new) (Comp.after (d.fetchAndVerifyManifest E) w).latch := by
    have hbare : Comp.Respects Aside (Comp.mapErr (fun e : IoError =>
        SynqroError.Internal s!"Tokio runtime build: {e.display}") bareCall) :=
          .mapErr _ bareCall_aside
    have aside {w' : World} (haside : Aside w w') :
        ∃ new, marks w'.trace = marks w.trace ++ new ∧ Watched (h ++ new) w'.latch :=
      ⟨[], by rw [haside.marks, List.append_nil], by rwa [haside.latch, List.append_nil]⟩
    unfold SynqroDownloader.fetchAndVerifyManifest
    cases hb : Comp.mapErr (fun e : IoError =>
        SynqroError.Internal s!"Tokio runtime build: {e.display}") bareCall w with
    | error e w₁ =>
      rw [Comp.after_bind_error hb]
      exact aside (hbare.error hb)
    | ok u w₁ =>
      obtain ⟨-, rfl⟩ := bareCall_ok.1 (Comp.mapErr_ok.1 hb)
      rw [Comp.after_bind_ok hb]
      cases hc : SynqroDownloader.checkDegraded w.tick with
      | error e w₂ =>
        rw [Comp.after_bind_error hc]
        exact aside (IsTrans.trans _ _ _ (Aside.tick w)
          (SynqroDownloader.checkDegraded_aside.error hc))
      | ok u w₂ =>
        have hopen : w.latch.degradedMode = false ∧ w₂ = w.tick := by
          simp only [SynqroDownloader.checkDegraded, Comp.bind_ok, failIf_ok] at hc
          obtain ⟨_, _, hget, hd, rfl⟩ := hc
          cases hget
          exact ⟨Bool.eq_false_of_not_eq_true hd, rfl⟩
        obtain ⟨hopen, rfl⟩ := hopen
        rw [Comp.after_bind_ok hc]
        refine SynqroDownloader.fetchAttempts_watched (w := w.tick) hw hopen ?_
        exact hin.resolve_left (by rw [hopen]; exact Bool.false_ne_true)
  rw [history, hafter, hmarks, List.drop_left]
  exact hwatched

theorem download_watched {manifest : SynqroManifest} {stagingDir : UnixPath}
    (hw : Watched h w.latch) (hin : InTime E d w (.download manifest stagingDir)) :
    Watched (h ++ history E d w (.download manifest stagingDir))
      (Comp.after (run E d (.download manifest stagingDir)) w).latch := by
  have hafter : Comp.after (run E d (.download manifest stagingDir)) w =
      Comp.after (d.downloadAndVerifyArtifact E manifest stagingDir) w := Comp.after_bind_pure _ _ _
  have haside := SynqroDownloader.prepareDownload_aside (E := E) (d := d) manifest
  rw [history, hafter]
  cases hp : d.prepareDownload E manifest w with
  | error e w₁ =>
    -- no request was sent
    have hrun : Comp.after (d.downloadAndVerifyArtifact E manifest stagingDir) w = w₁ := by
      rw [SynqroDownloader.downloadAndVerifyArtifact_eq]
      exact Comp.after_bind_error hp
    have hsame := haside.error hp
    rw [hrun, requestCount_eq, requestCount_eq, hsame.marks, if_neg (lt_irrefl _), List.append_nil,
      hsame.latch]
    exact hw
  | ok at' w₀ =>
    obtain ⟨artifact, token⟩ := at'
    have hsame := haside.ok hp
    have hopen : w.latch.degradedMode = false := by
      obtain ⟨_, w₁, hc, -⟩ := Comp.bind_ok.1 hp
      simp only [SynqroDownloader.checkDegraded, Comp.bind_ok, failIf_ok] at hc
      obtain ⟨_, _, hget, hd, -⟩ := hc
      cases hget
      exact Bool.eq_false_of_not_eq_true hd
    have hprepared := @SynqroDownloader.downloadAndVerifyArtifact_prepared _ _ _ _ _
      stagingDir _ _ hp
    have hrequest : Watched (h ++ [.request]) w₀.latch := by
      rw [hsame.latch]
      exact hw.request hopen
    have hopen₀ : w₀.latch.degradedMode = false := by rw [hsame.latch]; exact hopen
    cases hx : d.fetchArtifact E manifest.version (stagingPath E stagingDir)
        (deployedPath E stagingDir) artifact token w₀ with
    | ok q w' =>
      obtain ⟨hlatch, hmarks⟩ := SynqroDownloader.fetchArtifact_ok hx
      have hgrew : requestCount w.trace < requestCount w'.trace := by
        rw [requestCount_eq, requestCount_eq, hmarks, hsame.marks, List.count_append]
        exact Nat.lt_add_of_pos_right (by decide)
      rw [Comp.after, hprepared, hx, Comp.final_ok, if_pos hgrew, hlatch]
      have := hrequest.success hopen₀
      simpa [Comp.returned] using this
    | error e w' =>
      have hdownload := hprepared.trans hx
      obtain ⟨v, hexit⟩ := hin artifact token w₀ e w' hp hdownload
      rcases SynqroDownloader.fetchArtifact_error hx with ⟨v', -, hsent, hgiven⟩ | ⟨hnone, -⟩
      · have hgrew : requestCount w.trace < requestCount w'.trace := by
          rw [requestCount_eq, requestCount_eq, hgiven.marks, hsent.marks, hsame.marks,
            List.append_assoc, List.count_append]
          exact Nat.lt_add_of_pos_right (by decide)
        rw [Comp.after, hdownload, Comp.final_error, if_pos hgrew, hgiven.latch, hsent.latch]
        have := (hrequest.failure hopen₀).1
        simpa [Comp.returned] using this
      · exact absurd hexit (hnone v)

/-- Every call that meets its condition keeps the watch. -/
theorem watched (c : DownloaderCall) (hw : Watched h w.latch) (hin : c.InTime E d w) :
    Watched (h ++ c.history E d w) (Comp.after (c.run E d) w).latch := by
  cases c with
  | fetch => exact fetch_watched hw hin
  | download manifest stagingDir => exact download_watched hw hin

end

end DownloaderCall

/-- A run of calls in `P` on one downloader, with its history: from its construction on, calls and
whatever else happens to the world, but for the downloader's own latch. -/
inductive DownloaderRun (E : Externals) (d : SynqroDownloader) (P : World → DownloaderCall → Prop) :
    List Mark → World → Prop where
  | start {w : World} : w.latch = ⟨0, false⟩ → DownloaderRun E d P [] w
  | elsewhere {h : List Mark} {w w' : World} :
    DownloaderRun E d P h w → w'.latch = w.latch → DownloaderRun E d P h w'
  | call {h : List Mark} {w : World} (c : DownloaderCall) : P w c → DownloaderRun E d P h w →
    DownloaderRun E d P (h ++ c.history E d w) (Comp.after (c.run E d) w)

/-- **No request after the latch.** In a run of fetches and downloads on one downloader in which
every retry loop is over when the fifth consecutive failure has come, and every failed download is
counted, no request is sent after the fifth consecutive failed attempt. -/
theorem downloaderRun_latched (E : Externals) (d : SynqroDownloader) (h : List Mark) (w : World)
    (hrun : DownloaderRun E d (DownloaderCall.InTime E d) h w) : NoRequestAfterFive h := by
  have hwatched : Watched h w.latch := by
    induction hrun with
    | start hlatch => exact hlatch ▸ Watched.start
    | elsewhere _ hlatch ih => exact hlatch ▸ ih
    | call c hin _ ih => exact c.watched ih hin
  exact hwatched.quiet

/-! ## A server out of reach -/

/-- A downloader that makes so many retries. -/
def retrying (maxRetries : UInt32) : SynqroDownloader :=
  { releaseClient with updateConfig := { releaseClient.updateConfig with maxRetries } }

/-- Five attempts fail, and the next fetch is refused. -/
theorem downloaderRun_latched_four :
    NoRequestAfterFive ([] ++ DownloaderCall.history .release (retrying 4) installed .fetch ++
      DownloaderCall.history .release (retrying 4)
        (Comp.after (DownloaderCall.run .release (retrying 4) .fetch) installed) .fetch) := by
  refine downloaderRun_latched .release (retrying 4) _ _
    (.call .fetch ?_ (.call .fetch ?_ (.start rfl)))
  · exact .inl (by decide +kernel)
  · exact .inr (.inl (by decide))

/-- With five retries the sixth attempt sends its request after five failures. -/
theorem downloaderRun_requests_six :
    ¬ ∀ (h : List Mark) (w : World), DownloaderRun .release (retrying 5) (fun _ _ => True) h w →
      NoRequestAfterFive h := by
  intro hall
  have h := hall _ _ (.call .fetch trivial (.start (w := installed) rfl))
  have hhistory : DownloaderCall.history .release (retrying 5) installed .fetch =
      [.request, .attempt false, .request, .attempt false, .request, .attempt false, .request,
        .attempt false, .request, .attempt false] ++ .request :: [.attempt false] := by
    decide +kernel
  rw [hhistory, List.nil_append] at h
  exact h [.request, .attempt false, .request, .attempt false, .request, .attempt false, .request,
    .attempt false, .request, .attempt false] [.attempt false] rfl (List.infix_refl _)

end Synqro
