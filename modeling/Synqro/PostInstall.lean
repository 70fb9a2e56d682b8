import Synqro.ConfigFile
import Synqro.RateLimit

/-!
# The generated configuration

`scripts/post_install.py` writes the configuration under the key `synqro`, with placeholders to be
filled in; the engine reads it under `axiomota` and refuses every other key, and the reporter asks
for `synqro`. So no filling is loaded by the engine, and nothing it loads is a configuration to the
reporter (`configuration_refused`).
-/

namespace Synqro

namespace PostInstall

/-- The data of the generated file. -/
def buildConfig (installationId : String) : PyValue :=
  .dict [("synqro", .dict [
    ("version", .str "1.0"),
    ("installation_id", .str installationId),
    ("source", .dict [
      ("provider", .str "github"),
      ("owner", .str "REPLACE_ME"),
      ("repo", .str "REPLACE_ME"),
      ("branch", .str "main"),
      ("manifest_path", .str "synqro_manifest.json")]),
    ("auth", .dict [
      ("token_source", .str "keychain"),
      ("env_var", .str "")]),
    ("crypto", .dict [
      ("release_signing_pubkey", .str "REPLACE_ME"),
      ("github_api_cert_pin", .str "REPLACE_ME")]),
    ("update", .dict [
      ("check_interval_seconds", .int 3600),
      ("max_retries", .int 3),
      ("retry_backoff_base_seconds", .int 5),
      ("download_timeout_seconds", .int 60),
      ("max_payload_size_bytes", .int 52428800),
      ("staging_dir", .str ".synqro_cache/staging"),
      ("backup_dir", .str ".synqro_cache/backup")]),
    ("rollback", .dict [
      ("enabled", .bool true),
      ("health_check_timeout_seconds", .int 30),
      ("max_backup_versions", .int 2)]),
    ("reporting", .dict [
      ("enabled", .bool true),
      ("telegram_token_source", .str "keychain"),
      ("telegram_token_env_var", .str ""),
      ("telegram_chat_id", .str "REPLACE_ME"),
      ("scrub_patterns", .list [
        .str "\\b[A-Za-z0-9._%+\\-]+@[A-Za-z0-9.\\-]+\\.[A-Za-z]\x7b2,\x7d\\b",
        .str "\\b(?:\\d\x7b1,3\x7d\\.)\x7b3\x7d\\d\x7b1,3\x7d\\b",
        .str "ghp_[A-Za-z0-9]\x7b36\x7d",
        .str "(?i)(password|secret|token|key)\\s*[=:>]\\s*\\S+"])]),
    ("logging", .dict [
      ("level", .str "warn"),
      ("structured", .bool true),
      ("audit_log_path", .str ".synqro_cache/audit.log.jsonl"),
      ("audit_hmac_enabled", .bool true)])])]

mutual

/-- The data with every placeholder replaced by what stands for its place, the keys on the way to
it. -/
def fill (values : List String → String) (place : List String) : PyValue → PyValue
  | .str s => if s = "REPLACE_ME" then .str (values place) else .str s
  | .list xs => .list (fillList values place xs)
  | .dict ms => .dict (fillMembers values place ms)
  | v => v

def fillList (values : List String → String) (place : List String) : List PyValue → List PyValue
  | [] => []
  | x :: xs => fill values place x :: fillList values place xs

def fillMembers (values : List String → String) (place : List String) :
    List (String × PyValue) → List (String × PyValue)
  | [] => []
  | (k, v) :: ms => (k, fill values (place ++ [k]) v) :: fillMembers values place ms

end

/-- Values that can stand for a placeholder. -/
def Fills (values : List String → String) : Prop :=
  ∀ place, values place ≠ "" ∧ values place ≠ "REPLACE_ME"

end PostInstall

namespace SerdeYaml

mutual

/-- The reader finds the value at the node. -/
def Holds (S : SerdeYaml) (n : S.Node) : PyValue → Prop
  | .bool b => S.bool n = some b
  | .int k => ∃ u, S.u64 n = some u ∧ (u.toNat : Int) = k
  | .str s => S.str n = some s
  | .list xs => ∃ ns, S.seq n = some ns ∧ HoldsList S ns xs
  | .dict ms => ∃ ns, S.map n = some ns ∧ HoldsMembers S ns ms
  | .none | .float _ | .object _ _ => False

def HoldsList (S : SerdeYaml) : List S.Node → List PyValue → Prop
  | [], [] => True
  | n :: ns, x :: xs => Holds S n x ∧ HoldsList S ns xs
  | _, _ => False

def HoldsMembers (S : SerdeYaml) : List (String × S.Node) → List (String × PyValue) → Prop
  | [], [] => True
  | (k, n) :: ns, (k', x) :: ms => k = k' ∧ Holds S n x ∧ HoldsMembers S ns ms
  | _, _ => False

end

/-- The two YAML readers agree on keys: what the script's finds under a text key, a merge apart, is
under a key of the mapping that the engine's finds. -/
def KeysAgree (S : SerdeYaml) (P : PyLibrary) : Prop :=
  ∀ raw node ms members key v, S.parse raw = .ok node → S.map node = some ms →
    P.safeLoad raw = .ok (.dict members) → "<<" ∉ ms.map (·.1) →
    PyValue.find key members = some v → key ∈ ms.map (·.1)

end SerdeYaml

open PostInstall ConfigFile TelegramBot

/-- **One configuration file.** No filling of the generated configuration is loaded by the engine,
and no file the engine loads is accepted by the reporter. -/
theorem configuration_refused (S : SerdeYaml) (P : PyLibrary) (hkeys : S.KeysAgree P) :
    (∀ installationId values raw node, Fills values → S.parse raw = .ok node →
      S.Holds node (fill values [] (buildConfig installationId)) →
      loadConfig S (.ok raw) = .error (.Yaml (S.shapeError raw))) ∧
    ∀ raw cfg configPath, loadConfig S (.ok raw) = .ok cfg →
      ∃ e, loadYamlConfig P configPath (.ok raw) = .error e := by
  constructor
  · rintro installationId values raw node - hparse ⟨ns, hmap, hmembers⟩
    match ns, hmembers with
    | [(k, n)], ⟨hk, _⟩ =>
      have hunknown : k ≠ "axiomota" := by
        rw [hk]
        decide
      exact loadConfig_unknown hparse hmap (.head _) hunknown
  · intro raw cfg configPath hload
    obtain ⟨node, ms, hparse, hmap, honly⟩ := loadConfig_ok hload
    have hmerge : "<<" ∉ ms.map (·.1) := fun h => absurd (honly _ h) (by decide)
    unfold loadYamlConfig
    simp only [Except.mapError, bind, Except.bind]
    cases hsafe : P.safeLoad raw with
    | error e => exact ⟨_, rfl⟩
    | ok parsed =>
      cases parsed with
      | dict members =>
        cases hfind : PyValue.find "synqro" members with
        | none => exact ⟨_, if_neg (by rw [hfind]; exact Bool.false_ne_true)⟩
        | some v =>
          have hkey := hkeys raw node ms members "synqro" v hparse hmap hsafe hmerge hfind
          exact absurd (honly _ hkey) (by decide)
      | _ => exact ⟨_, rfl⟩

/-! ## Two files -/

/-- A YAML reader of the texts that are JSON. -/
def SerdeYaml.running : SerdeYaml where
  Node := Json
  parse raw :=
    match Json.read 127 raw.toList with
    | some j => .ok j
    | none => .error "expected a JSON text"
  str
    | .str s => some s
    | .num n => some (.ofList (Json.printNumber n))
    | .bool b => some (if b then "true" else "false")
    | _ => none
  bool
    | .bool b => some b
    | _ => none
  u64
    | .num (.posInt n) => some n
    | _ => none
  u32
    | .num (.posInt n) => if n.toNat < 2 ^ 32 then some n.toUInt32 else none
    | _ => none
  seq
    | .arr xs => some xs
    | _ => none
  map
    | .obj ms => some ms
    | _ => none
  shapeError _ := "unknown field"

theorem key_of_find_ofJsonMembers {key : String} {v : PyValue} {ms : List (String × Json)}
    (h : PyValue.find key (PyValue.ofJsonMembers ms) = some v) : key ∈ ms.map (·.1) := by
  induction ms with
  | nil => cases h
  | cons m ms ih =>
    obtain ⟨k, j⟩ := m
    simp only [PyValue.ofJsonMembers, PyValue.find] at h
    split at h
    · next hkey => exact hkey ▸ .head _
    · exact .tail _ (ih h)

theorem SerdeYaml.running_keysAgree : SerdeYaml.running.KeysAgree .running := by
  intro raw node ms members key v hparse hmap hsafe _ hfind
  have hload : PyLibrary.running.safeLoad raw = .ok (.ofJson node) := by
    have hnode : Json.read 127 raw.toList = some node := by
      simp only [running] at hparse
      split at hparse
      · next j hj =>
        cases hparse
        exact hj
      · cases hparse
    simp only [PyLibrary.running, hnode]
  rw [hload] at hsafe
  cases node with
  | obj ms' =>
    cases hmap
    have hmembers : PyValue.ofJsonMembers ms = members := by
      cases hsafe
      rfl
    exact key_of_find_ofJsonMembers (hmembers ▸ hfind)
  | _ => cases hmap

/-- The generated configuration with every placeholder replaced by one text. -/
def filledConfig : Json :=
  .obj [("synqro", .obj [
    ("version", .str "1.0"),
    ("installation_id", .str "installation"),
    ("source", .obj [("provider", .str "github"), ("owner", .str "value"), ("repo", .str "value"),
      ("branch", .str "main"), ("manifest_path", .str "synqro_manifest.json")]),
    ("auth", .obj [("token_source", .str "keychain"), ("env_var", .str "")]),
    ("crypto", .obj [("release_signing_pubkey", .str "value"),
      ("github_api_cert_pin", .str "value")]),
    ("update", .obj [("check_interval_seconds", .num (.posInt 3600)),
      ("max_retries", .num (.posInt 3)),
      ("retry_backoff_base_seconds", .num (.posInt 5)),
      ("download_timeout_seconds", .num (.posInt 60)),
      ("max_payload_size_bytes", .num (.posInt 52428800)),
      ("staging_dir", .str ".synqro_cache/staging"), ("backup_dir", .str ".synqro_cache/backup")]),
    ("rollback", .obj [("enabled", .bool true), ("health_check_timeout_seconds", .num (.posInt 30)),
      ("max_backup_versions", .num (.posInt 2))]),
    ("reporting", .obj [("enabled", .bool true), ("telegram_token_source", .str "keychain"),
      ("telegram_token_env_var", .str ""), ("telegram_chat_id", .str "value"),
      ("scrub_patterns", .arr [
        .str "\\b[A-Za-z0-9._%+\\-]+@[A-Za-z0-9.\\-]+\\.[A-Za-z]\x7b2,\x7d\\b",
        .str "\\b(?:\\d\x7b1,3\x7d\\.)\x7b3\x7d\\d\x7b1,3\x7d\\b",
        .str "ghp_[A-Za-z0-9]\x7b36\x7d",
        .str "(?i)(password|secret|token|key)\\s*[=:>]\\s*\\S+"])]),
    ("logging", .obj [("level", .str "warn"), ("structured", .bool true),
      ("audit_log_path", .str ".synqro_cache/audit.log.jsonl"),
        ("audit_hmac_enabled", .bool true)])])]

/-- A file that the engine loads. -/
def minimalConfig : Json :=
  .obj [("axiomota", .obj [
    ("version", .str "1.0"),
    ("installation_id", .str "550e8400-e29b-41d4-a716-446655440000"),
    ("source", .obj [("provider", .str "github"), ("owner", .str "example-org"),
      ("repo", .str "my-service"), ("branch", .str "main"),
      ("manifest_path", .str "releases/synqro_manifest.json")]),
    ("auth", .obj [("token_source", .str "env"), ("env_var", .str "SYNQRO_GITHUB_TOKEN")]),
    ("crypto", .obj [
      ("release_signing_pubkey", .str "AAAAAAAAAAAAAAAAAAAAAAAAAAAAAAAAAAAAAAAAAAA="),
      ("github_api_cert_pin",
        .str "abc123def456abc123def456abc123def456abc123def456abc123def456ab12")]),
    ("update", .obj [("check_interval_seconds", .num (.posInt 300)),
      ("max_retries", .num (.posInt 3)),
      ("retry_backoff_base_seconds", .num (.posInt 5)),
      ("download_timeout_seconds", .num (.posInt 60)),
      ("max_payload_size_bytes", .num (.posInt 104857600)),
      ("staging_dir", .str ".synqro_cache/staging"), ("backup_dir", .str ".synqro_cache/backup")]),
    ("rollback", .obj [("enabled", .bool true), ("health_check_timeout_seconds", .num (.posInt 30)),
      ("max_backup_versions", .num (.posInt 3))]),
    ("reporting", .obj [("enabled", .bool false), ("telegram_token_source", .str "env"),
      ("telegram_token_env_var", .str "SYNQRO_TELEGRAM_TOKEN"), ("telegram_chat_id", .str ""),
      ("scrub_patterns", .arr [])]),
    ("logging", .obj [("level", .str "info"), ("structured", .bool true),
      ("audit_log_path", .str "/var/log/synqro/audit.log"), ("audit_hmac_enabled", .bool true)])])]

theorem value_fills : Fills fun _ => "value" := by
  have hvalue : "value" ≠ "" ∧ "value" ≠ "REPLACE_ME" := by decide
  exact fun _ => hvalue

theorem filledConfig_holds : SerdeYaml.running.Holds filledConfig
    (fill (fun _ => "value") [] (buildConfig "installation")) := by
  simp [fill, fillMembers, fillList, buildConfig, filledConfig, SerdeYaml.running, SerdeYaml.Holds,
    SerdeYaml.HoldsMembers, SerdeYaml.HoldsList]

theorem parse_jsonText {j : Json} (h : j.nesting ≤ 127) :
    SerdeYaml.running.parse (jsonText j) = .ok j := by
  simp only [SerdeYaml.running, read_jsonText h]

theorem minimalConfig_loads : ∃ cfg, loadConfig .running (.ok (jsonText minimalConfig)) = .ok cfg ∧
    cfg.logging.auditLogPath = "/var/log/synqro/audit.log" := by
  have hvalid : (match ConfigFile.read .running minimalConfig with
    | some cfg => (validateConfig cfg).isOk &&
      cfg.logging.auditLogPath = "/var/log/synqro/audit.log"
    | none => false) = true := by decide +kernel
  cases hread : ConfigFile.read .running minimalConfig with
  | none =>
    rw [hread] at hvalid
    cases hvalid
  | some cfg =>
    rw [hread] at hvalid
    obtain ⟨hvalid, hpath⟩ := Bool.and_eq_true_iff.1 hvalid
    cases hok : validateConfig cfg with
    | error e =>
      rw [hok] at hvalid
      cases hvalid
    | ok u =>
      exact ⟨cfg, loadConfig_valid (parse_jsonText (by decide)) hread hok, of_decide_eq_true hpath⟩

/-- The filled configuration is refused by the engine, a file it loads by the reporter. -/
theorem configuration_refused_json :
    loadConfig .running (.ok (jsonText filledConfig)) = .error (.Yaml "unknown field") ∧
      ∃ e, loadYamlConfig .running "/app/synqro_ota.yaml" (.ok (jsonText minimalConfig)) =
        .error e := by
  have hrefused := configuration_refused .running .running SerdeYaml.running_keysAgree
  obtain ⟨cfg, hload, -⟩ := minimalConfig_loads
  refine ⟨?_, hrefused.2 _ cfg _ hload⟩
  exact hrefused.1 "installation" (fun _ => "value") _ filledConfig value_fills
    (parse_jsonText (by decide)) filledConfig_holds

/-- A filling that the engine does not load. -/
theorem configuration_split :
    Fills (fun _ => "value") ∧ SerdeYaml.running.parse (jsonText filledConfig) = .ok filledConfig ∧
      SerdeYaml.running.Holds filledConfig
        (fill (fun _ => "value") [] (buildConfig "installation")) ∧
      ¬ ∃ cfg, loadConfig .running (.ok (jsonText filledConfig)) = .ok cfg := by
  have hparse : SerdeYaml.running.parse (jsonText filledConfig) = .ok filledConfig :=
    parse_jsonText (by decide)
  refine ⟨value_fills, hparse, filledConfig_holds, ?_⟩
  rintro ⟨cfg, hload⟩
  rw [loadConfig_unknown hparse rfl (.head _) (by decide)] at hload
  cases hload

end Synqro
