import Synqro.Scrubbing

/-!
# Crash loops

The reporter's rate limit lives in `CrashReporter`, and every crash starts the script anew: a run
begins with nothing sent (`started`), so it suppresses nothing. `CrashRun` is a run on the common
configuration with an authentic report; `floodFree_iff` says which histories of runs keep the
limit: those whose crashes came that far apart by themselves.
-/

namespace Synqro

open TelegramBot

/-- A run of the script on a configuration file in which reporting is set up for an installation,
with an authentic report of that installation. -/
structure CrashRun (P : PyLibrary) (configPath : String) (config : Except PyError String)
    (installationId : String) where
  inv : Invocation
  configPath_eq : inv.configPath = configPath
  config_eq : inv.config = config
  cfg : List (String × PyValue)
  loads : loadYamlConfig P configPath config = .ok cfg
  synqroCfg : PyValue
  synqro : PyValue.find "synqro" cfg = some synqroCfg
  level : PyValue
  logLevel : TelegramBot.logLevel inv synqroCfg = .ok level
  logs : configureLogging P level = .ok ()
  reportingCfg : PyValue
  reporting : synqroCfg.get "reporting" (.dict []) = .ok reportingCfg
  installation : synqroCfg.get "installation_id" (.str "") = .ok (.str installationId)
  named : installationId ≠ "" ∧ installationId ≠ "REPLACE_ME"
  enabledValue : PyValue
  enabledMember : reportingCfg.get "enabled" (.bool false) = .ok enabledValue
  enabled : enabledValue.truthy = true
  scrubValue : PyValue
  scrubMember : reportingCfg.get "scrub_patterns" (.list []) = .ok scrubValue
  scrubPatterns : List String
  scrub : scrubValue.iterate = .ok (scrubPatterns.map .str)
  reporter : CrashReporter
  tokenSource : reportingCfg.get "telegram_token_source"
    (.str "keychain") = .ok reporter.tokenSource
  tokenEnvVar : reportingCfg.get "telegram_token_env_var" (.str "") = .ok reporter.tokenEnvVar
  chatValue : PyValue
  chatMember : reportingCfg.get "telegram_chat_id" (.str "") = .ok chatValue
  chatId : chatValue.toStr P.repr = reporter.chatId
  chat : ¬ (reporter.chatId = "" ∨ reporter.chatId = "REPLACE_ME")
  report : List (String × PyValue)
  reportLoads : loadReportFile P inv.reportPath inv.report = .ok report
  ofInstallation : field P report "installation_id" "" = installationId
  authentic : verifyHmac P (deriveHmacKey P installationId) report = .ok ()

namespace CrashRun

variable {P : PyLibrary} {configPath : String} {config : Except PyError String}
  {installationId : String} (r : CrashRun P configPath config installationId)

/-- A run comes down to scrubbing and sending its report. -/
theorem main_run : main P r.inv started =
    match sanitizeReport P r.report (r.scrubPatterns.map .str) with
    | .error e => .error e started
    | .ok scrubbed =>
      match sendReport P r.inv r.reporter scrubbed (deriveHmacKey P installationId) started with
      | .ok true s => .ok 0 s
      | .ok false s => .ok 1 s
      | .error _ s => .ok 2 s := by
  have hload : loadYamlConfig P r.inv.configPath r.inv.config = .ok r.cfg := by
    rw [r.configPath_eq, r.config_eq, r.loads]
  have htruthy : (PyValue.str installationId).truthy = true := decide_eq_true r.named.1
  have hreplace : (PyValue.str installationId).isStr "REPLACE_ME" = false :=
    decide_eq_false r.named.2
  have hreport : main P r.inv started =
      reportCrash P r.inv r.reportingCfg (.str installationId) r.report started := by
    unfold main
    rw [hload]
    simp only [r.synqro, Option.getD_some, r.logLevel, Comp.ofExcept_ok_bind, r.logs, r.reporting,
      r.installation, htruthy, hreplace, r.enabledMember, r.enabled, r.reportLoads]
    rw [if_neg (by simp), if_neg (by simp)]
  rw [hreport, reportCrash]
  simp only [r.scrubMember, Comp.ofExcept_ok_bind, r.scrub]
  cases sanitizeReport P r.report (r.scrubPatterns.map .str) with
  | error e => rfl
  | ok scrubbed =>
    have hreporter : (⟨r.reporter.tokenSource, r.reporter.tokenEnvVar,
        r.chatValue.toStr P.repr⟩ : CrashReporter) = r.reporter := by rw [r.chatId]
    simp only [Comp.ofExcept_ok_bind, hmacKeyOf, r.tokenSource, r.tokenEnvVar, r.chatMember,
      hreporter]
    rw [r.chatId, if_neg r.chat, Comp.bind_run]
    unfold Comp.outcome
    cases sendReport P r.inv r.reporter scrubbed (deriveHmacKey P installationId) started with
    | error e s => rfl
    | ok delivered s => cases delivered <;> rfl

/-- The scrubbed report verifies and the chat takes its message. -/
def Deliverable : Prop :=
  ∃ scrubbed, sanitizeReport P r.report (r.scrubPatterns.map .str) = .ok scrubbed ∧
    verifyHmac P (deriveHmacKey P installationId) scrubbed = .ok () ∧
    sendOutcome P r.inv r.reporter (formatReport P (restored scrubbed)) = .ok ()

/-- A new process is not rate-limited, so what can be delivered is. -/
theorem deliveries_deliverable (h : r.Deliverable) :
    exitCode P r.inv = 0 ∧ ∃ message, deliveries P r.inv = [(r.inv.monotonic 0, message)] := by
  obtain ⟨scrubbed, hscrubbed, hverified, hsent⟩ := h
  obtain ⟨calls, hsend, hcalls⟩ := @sendReport_verified _ r.inv r.reporter _ _ started
    rfl hverified
  obtain rfl : calls = 0 := hcalls rfl
  have hrun := r.main_run
  rw [hscrubbed] at hrun
  dsimp only at hrun
  rw [hsend, deliver_run, hsent] at hrun
  refine ⟨?_, formatReport P (restored scrubbed), ?_⟩
  · rw [exitCode, hrun]
  · rw [deliveries, Comp.after, hrun]
    rfl

theorem deliveries_undeliverable (h : ¬ r.Deliverable) : deliveries P r.inv = [] := by
  rw [deliveries, Comp.after, r.main_run]
  cases hscrubbed : sanitizeReport P r.report (r.scrubPatterns.map .str) with
  | error e => rfl
  | ok scrubbed =>
    dsimp only
    cases hverified : verifyHmac P (deriveHmacKey P installationId) scrubbed with
    | error e =>
      obtain ⟨s', hsend, -, hdelivered⟩ := @sendReport_unverified _ r.inv r.reporter _ _
        started _ rfl hverified
      rw [hsend]
      exact hdelivered
    | ok u =>
      obtain ⟨calls, hsend, -⟩ := @sendReport_verified _ r.inv r.reporter _ _ started
        rfl hverified
      rw [hsend, deliver_run]
      cases hsent : sendOutcome P r.inv r.reporter (formatReport P (restored scrubbed)) with
      | error e => rfl
      | ok u => exact absurd ⟨scrubbed, hscrubbed, hverified, hsent⟩ h

/-- Any two reports of a history are delivered that far apart, and a run that could have delivered
its report and did not exits with 1. -/
def FloodFree (runs : List (CrashRun P configPath config installationId)) : Prop :=
  ((runs.flatMap fun r => deliveries P r.inv).map (·.1)).Pairwise (fun t t' => rateLimit ≤ t' - t) ∧
    ∀ r ∈ runs, r.Deliverable → deliveries P r.inv = [] → exitCode P r.inv = 1

/-- **Crash loops.** A history of runs on one configuration, each with an authentic report of its
installation, keeps the rate limit exactly when the runs that can deliver their reports start at
least that far apart. -/
theorem floodFree_iff (P : PyLibrary) (configPath : String) (config : Except PyError String)
    (installationId : String) (runs : List (CrashRun P configPath config installationId)) :
    FloodFree runs ↔ runs.Pairwise fun r r' => r.Deliverable → r'.Deliverable →
      rateLimit ≤ r'.inv.monotonic 0 - r.inv.monotonic 0 := by
  have hsuppressed : ∀ r ∈ runs, r.Deliverable → deliveries P r.inv = [] →
    exitCode P r.inv = 1 := by
    intro r _ hr hnone
    obtain ⟨-, message, hone⟩ := r.deliveries_deliverable hr
    cases hone.symm.trans hnone
  rw [FloodFree, and_iff_left hsuppressed, List.pairwise_map, List.pairwise_flatMap]
  have hwithin : ∀ r ∈ runs,
    (deliveries P r.inv).Pairwise (fun d d' => rateLimit ≤ d'.1 - d.1) := by
    intro r _
    by_cases hr : r.Deliverable
    · obtain ⟨-, message, hone⟩ := r.deliveries_deliverable hr
      rw [hone]
      exact List.pairwise_singleton _ _
    · rw [r.deliveries_undeliverable hr]
      exact List.Pairwise.nil
  rw [and_iff_right hwithin]
  refine List.Pairwise.iff fun r r' => ?_
  by_cases hr : r.Deliverable
  · by_cases hr' : r'.Deliverable
    · obtain ⟨-, message, hone⟩ := r.deliveries_deliverable hr
      obtain ⟨-, message', hone'⟩ := r'.deliveries_deliverable hr'
      simp [hone, hone', hr, hr']
    · simp [r'.deliveries_undeliverable hr', hr']
  · simp [r.deliveries_undeliverable hr, hr]

end CrashRun

/-! ## A crash loop -/

/-- The text of a JSON tree. -/
def jsonText (j : Json) : String := .ofList (toJsonString j)

theorem read_jsonText {j : Json} (h : j.nesting ≤ 127) :
    Json.read 127 (jsonText j).toList = some j := by
  rw [jsonText, String.toList_ofList]
  exact Json.read_printWith h

/-- A configuration with reporting, in YAML's flow style. -/
def reportingConfig : String :=
  jsonText (.obj [("synqro", .obj [("installation_id", .str "installation"), ("reporting", .obj
    [("enabled", .bool true), ("telegram_chat_id", .str "1000")])])])

/-- A report with its tag. -/
def plainReportText : String :=
  jsonText (.obj [("installation_id", .str "installation"), ("log_tail", .str "segmentation fault"),
    ("hmac_sha256", .str "d87c02478c4764bc8ae0dd3d2553559e96e1086ed5a70aa8b214b314be6dea13")])

/-- The run after a crash at the time `now`. -/
def crashAt (now : Int) : Invocation :=
  { Invocation.calm with
    config := .ok reportingConfig
    report := .ok plainReportText
    monotonic := fun _ => now }

/-- What the configuration's member `reporting` holds. -/
def chatSettings : PyValue := .dict [("enabled", .bool true), ("telegram_chat_id", .str "1000")]

theorem reportingConfig_loads :
    loadYamlConfig .running "/app/synqro_ota.yaml" (.ok reportingConfig) =
      .ok [("synqro", .dict [("installation_id", .str "installation"),
        ("reporting", chatSettings)])] := by
  have hread : PyLibrary.running.safeLoad reportingConfig =
      .ok (.dict [("synqro", .dict [("installation_id", .str "installation"),
        ("reporting", chatSettings)])]) := by
    rw [reportingConfig, PyLibrary.running]
    dsimp only
    rw [read_jsonText (by decide)]
    rfl
  unfold loadYamlConfig
  simp only [Except.mapError, bind, Except.bind, hread]
  rfl

theorem plainReportText_loads :
    loadReportFile .running "/app/report.json" (.ok plainReportText) = .ok plainReport := by
  have hread : PyLibrary.running.jsonLoads plainReportText = .ok (.dict plainReport) := by
    rw [plainReportText, PyLibrary.running]
    dsimp only
    rw [read_jsonText (by decide)]
    rfl
  unfold loadReportFile
  simp only [Except.mapError, bind, Except.bind, hread]
  rfl

def crashRunAt (now : Int) :
    CrashRun .running "/app/synqro_ota.yaml" (.ok reportingConfig) "installation" where
  inv := crashAt now
  configPath_eq := rfl
  config_eq := rfl
  cfg := [("synqro", .dict [("installation_id", .str "installation"), ("reporting", chatSettings)])]
  loads := reportingConfig_loads
  synqroCfg := .dict [("installation_id", .str "installation"), ("reporting", chatSettings)]
  synqro := rfl
  level := .str "warn"
  logLevel := rfl
  logs := rfl
  reportingCfg := chatSettings
  reporting := rfl
  installation := rfl
  named := by decide
  enabledValue := .bool true
  enabledMember := rfl
  enabled := rfl
  scrubValue := .list []
  scrubMember := rfl
  scrubPatterns := []
  scrub := rfl
  reporter := chatReporter
  tokenSource := rfl
  tokenEnvVar := rfl
  chatValue := .str "1000"
  chatMember := rfl
  chatId := rfl
  chat := by decide
  report := plainReport
  reportLoads := plainReportText_loads
  ofInstallation := rfl
  authentic := reports_authentic.1

theorem crashRunAt_deliverable (now : Int) : (crashRunAt now).Deliverable := by
  have hsent (text : String) : sendOutcome .running (crashAt now) chatReporter text = .ok () := by
    have htoken : loadToken .running (crashAt now) chatReporter.tokenSource
        chatReporter.tokenEnvVar =
        loadToken .running .calm chatReporter.tokenSource chatReporter.tokenEnvVar := rfl
    have hcalm : loadToken .running .calm chatReporter.tokenSource chatReporter.tokenEnvVar =
        .ok "token" := by decide +kernel
    rw [sendOutcome, htoken, hcalm]
    rfl
  exact ⟨plainReport, rfl, reports_authentic.1, hsent _⟩

/-- Two crashes a second apart are both reported. -/
theorem crashLoop_floods : ¬ CrashRun.FloodFree [crashRunAt 0, crashRunAt (10 ^ 9)] := by
  rintro ⟨hapart, -⟩
  obtain ⟨-, message, hfirst⟩ := (crashRunAt 0).deliveries_deliverable (crashRunAt_deliverable 0)
  obtain ⟨-, message', hsecond⟩ :=
    (crashRunAt (10 ^ 9)).deliveries_deliverable (crashRunAt_deliverable (10 ^ 9))
  rw [List.flatMap_cons, List.flatMap_cons, hfirst, hsecond] at hapart
  have htimes : rateLimit ≤ (10 ^ 9 : Int) - 0 := (List.pairwise_cons.1 hapart).1 _ (.head _)
  exact absurd htimes (by decide)

end Synqro
