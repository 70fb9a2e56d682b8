import Synqro.Lib.Computation
import Synqro.Lib.PyValue
import Synqro.World

/-!
# The crash reporter

`synqro/reporter/telegram_bot.py`. A run of the script starts with a new `CrashReporter`, whose
`lastSent` is empty; `Invocation` is what the outside answers to one run: its files, its clock, the
keychain and Telegram. `PyLibrary` is the code the script imports. Texts are sequences of scalar
values: a report with a lone surrogate cannot be encoded and so has no tag to verify.
-/

namespace Synqro

/-- Functions of the libraries the script imports. -/
structure PyLibrary where
  sha256 : Bytes → Bytes
  /-- `hmac.new(key, message, "sha256").digest()`. -/
  hmacSha256 : Bytes → Bytes → Bytes
  /-- `re.compile(pattern)`, as what its `sub("[REDACTED]", ·)` makes of a text. -/
  compile : String → Except PyError (String → String)
  safeLoad : String → Except PyError PyValue
  jsonLoads : String → Except PyError PyValue
  repr : PyValue → String
  /-- The level a logger is set to by its name. -/
  setLevel : String → Except PyError Unit

/-- How a command to read a keychain ended. -/
inductive CommandResult where
  | output (stdout : String)
  | notFound
  | failed (returncode : Int)
  | timedOut

/-- What the outside answers to one run. -/
structure Invocation where
  configPath : String
  config : Except PyError String
  reportPath : String
  report : Except PyError String
  /-- `--log-level`. -/
  logLevel : Option String
  /-- The readings of the clock, in their order. -/
  monotonic : Nat → Int
  system : String
  /-- What the `keyring` package has, if it can be imported. -/
  keyring : Option (Option String)
  command : List String → CommandResult
  environ : String → Option String
  /-- What sending a message with a token to a chat ends in. -/
  telegram : String → String → String → Except PyError Unit

/-- A process of the script: what its reporter remembers, how often it has read the clock, and the
messages it has handed over and delivered, with the times of delivery. -/
structure ReporterState where
  lastSent : List (String × Int)
  calls : Nat
  attempted : List String
  delivered : List (Int × String)

/-- The reporter's computations. -/
abbrev R := Comp ReporterState PyError

namespace TelegramBot

/-- `RATE_LIMIT_SECONDS`, in nanoseconds. -/
def rateLimit : Int := 300 * 10 ^ 9

def maxPayloadChars : Nat := 3500

section
variable (P : PyLibrary)

/-! ## HKDF-SHA256 -/

def hkdfExtract (salt ikm : Bytes) : Bytes :=
  P.hmacSha256 (if salt = [] then List.replicate 32 0 else salt) ikm

def hkdfExpand (prk info : Bytes) (length : Nat) : Bytes :=
  let hashLen := prk.length
  let n := (length + hashLen - 1) / hashLen
  let (okm, _) := (List.range n).foldl (fun (okm, t) i =>
    let t := P.hmacSha256 prk (t ++ info ++ [UInt8.ofNat (i + 1)])
    (okm ++ t, t)) ([], [])
  okm.take length

/-- Derive the key of the reports from the installation's name. -/
def deriveHmacKey (installationId : String) : Bytes :=
  let ikm := utf8 installationId
  let salt := P.sha256 (utf8 "synqro-hkdf-salt-v1")
  let prk := hkdfExtract P salt ikm
  hkdfExpand P prk (utf8 "synqro-crash-reporter-v1") 32

/-! ## Keychain token loading -/

/-- The characters that `str.strip` removes. -/
def isPySpace (c : Char) : Bool :=
  let n := c.toNat
  (9 ≤ n && n ≤ 13) || (28 ≤ n && n ≤ 32) || n = 0x85 || n = 0xa0 || n = 0x1680 ||
    (0x2000 ≤ n && n ≤ 0x200a) || n = 0x2028 || n = 0x2029 || n = 0x202f || n = 0x205f || n = 0x3000

def strip (s : String) : String :=
  .ofList ((s.toList.dropWhile isPySpace).reverse.dropWhile isPySpace).reverse

/-- The output of a command that reads the token. -/
def runCommand (inv : Invocation) (cmd : List String) : Except PyError String :=
  match inv.command cmd with
  | .output stdout => .ok (strip stdout)
  | .notFound => .error <| .runtime <|
      "Keychain tool not found: " ++ cmd.headD "" ++ ". " ++
        "Install the required package or use token_source: env"
  | .failed returncode => .error <| .runtime <|
      s!"Keychain lookup failed (exit {returncode}). " ++
        "Ensure the token is stored under service=synqro account=telegram_token"
  | .timedOut => .error (.runtime "Keychain lookup timed out after 10 seconds")

/-- The bot's token from the keychain or an environment variable. -/
def loadToken (inv : Invocation) (tokenSource tokenEnvVar : PyValue) : Except PyError String := do
  let token ←
    if tokenSource.isStr "keychain" then
      if inv.system = "Linux" then
        runCommand inv ["secret-tool", "lookup", "service", "synqro", "account", "telegram_token"]
      else if inv.system = "Darwin" then
        runCommand inv
          ["security", "find-generic-password", "-s", "synqro", "-a", "telegram_token", "-w"]
      else if inv.system = "Windows" then
        match inv.keyring with
        | some (some stored) =>
          if stored ≠ "" then .ok stored
          else .error <| .runtime <|
            "Telegram token not found in Windows Credential Manager " ++
              "(keyring returned None for service='synqro', username='telegram_token')"
        | some none => .error <| .runtime <|
            "Telegram token not found in Windows Credential Manager " ++
              "(keyring returned None for service='synqro', username='telegram_token')"
        | none =>
          runCommand inv ["powershell.exe", "-NonInteractive", "-Command",
            "(Get-StoredCredential -Target synqro_telegram_token -AsCredentialObject).Password"]
      else .error (.runtime s!"Unsupported platform for keychain lookup: {inv.system}")
    else if tokenSource.isStr "env" then
      if tokenEnvVar.truthy = false then
        .error <| .runtime
          "token_source is 'env' but telegram_token_env_var is not set in config"
      else
        match tokenEnvVar with
        | .str name =>
          let token := (inv.environ name).getD ""
          if token = "" then
            .error (.runtime s!"Telegram token not found in environment variable: {name}")
          else .ok token
        | _ => .error (.other "TypeError" "str expected")
    else .error <| .runtime <|
      s!"Unknown token_source '{tokenSource.toStr P.repr}'. Expected 'keychain' or 'env'"
  if token = "" then .error (.runtime "Telegram token not found") else .ok token

/-! ## PII scrubbing -/

/-- Replace what the patterns match in a text. -/
def sanitizeValue (value : String) (patterns : List (String → String)) : String :=
  patterns.foldl (fun value sub => sub value) value

mutual

/-- Scrub every text of a value; the keys of dictionaries stay. -/
def deepSanitize (patterns : List (String → String)) : PyValue → PyValue
  | .str s => .str (sanitizeValue s patterns)
  | .dict ms => .dict (deepSanitizeMembers patterns ms)
  | .list xs => .list (deepSanitizeList patterns xs)
  | v => v

def deepSanitizeList (patterns : List (String → String)) : List PyValue → List PyValue
  | [] => []
  | x :: xs => deepSanitize patterns x :: deepSanitizeList patterns xs

def deepSanitizeMembers (patterns : List (String → String)) :
    List (String × PyValue) → List (String × PyValue)
  | [] => []
  | (k, v) :: ms => (k, deepSanitize patterns v) :: deepSanitizeMembers patterns ms

end

/-- The scrub patterns, compiled. -/
def compileAll : List PyValue → Except PyError (List (String → String))
  | [] => .ok []
  | .str p :: ps => do return (← P.compile p) :: (← compileAll ps)
  | _ :: _ => .error (.other "TypeError" "first argument must be string or compiled pattern")

/-- Scrub a report twice. -/
def sanitizeReport (report : List (String × PyValue)) (scrubPatterns : List PyValue) :
    Except PyError (List (String × PyValue)) := do
  let compiled ← compileAll P scrubPatterns
  return deepSanitizeMembers compiled (deepSanitizeMembers compiled report)

/-! ## Report formatting -/

/-- Escape a text for MarkdownV2. -/
def escapeMdv2 (text : String) : String :=
  .ofList (text.toList.flatMap fun c =>
    if "_*[]()~`>#+-=|\x7b\x7d.!\\".toList.contains c then ['\\', c] else [c])

/-- Trim a log from its oldest end to the budget. -/
def truncateLogTail (logTail : String) (budget : Nat) : String :=
  if logTail.length ≤ budget then logTail
  else
    let mark := "...[truncated]\n"
    mark ++ .ofList (logTail.toList.drop (logTail.length - budget + mark.length))

/-- The text `str(r.get(key, default))`. -/
def field (r : List (String × PyValue)) (key dflt : String) : String :=
  ((PyValue.find key r).getD (.str dflt)).toStr P.repr

/-- The message for a report. -/
def formatReport (r : List (String × PyValue)) : String :=
  let installId := field P r "installation_id" "unknown"
  let errorMsg := field P r "error_message" ""
  let hmacVal := (String.ofList ((field P r "hmac_sha256" "").toList.take 16)) ++ "..."
  let unknown (key : String) := escapeMdv2 (field P r key "unknown")
  let header :=
    "🔴 *Synqro Crash Report*\ninstall: `" ++
      escapeMdv2 (.ofList (installId.toList.take 8)) ++ "\\.\\.\\.\n`trigger: `" ++
      unknown "trigger" ++ "`\ntime: `" ++ unknown "timestamp" ++ "`\nversion: `" ++
      unknown "version" ++ "`\nos: `" ++ unknown "os" ++ "`\nexit: `" ++ unknown "exit_code" ++
      "`\nhmac: `" ++ escapeMdv2 hmacVal ++ "`\n"
  let errorSection :=
    if errorMsg = "" then ""
    else "\n*Error:*\n```\n" ++ .ofList (errorMsg.toList.take 400) ++ "\n```\n"
  let logSectionPrefix := "\n*Log tail:*\n```\n"
  let logSectionSuffix := "\n```"
  let footer := "\n_Report generated by Synqro crash reporter_"
  let fixedLen := header.length + errorSection.length + logSectionPrefix.length +
    logSectionSuffix.length + footer.length
  let truncatedLog := truncateLogTail (field P r "log_tail" "") (maxPayloadChars - fixedLen)
  header ++ errorSection ++ logSectionPrefix ++ truncatedLog ++ logSectionSuffix ++ footer

/-! ## CrashReporter -/

/-- Sends verified crash reports to a Telegram chat. -/
structure CrashReporter where
  tokenSource : PyValue
  tokenEnvVar : PyValue
  chatId : String

/-- `time.monotonic()`. -/
def monotonic (inv : Invocation) : R Int := do
  let s ← get
  modify fun s => { s with calls := s.calls + 1 }
  return inv.monotonic s.calls

/-- The last delivery for this installation was less than the limit ago. -/
def isRateLimited (inv : Invocation) (installId : String) : R Bool := do
  match (← get).lastSent.lookup installId with
  | none => return false
  | some last => return decide ((← monotonic inv) - last < rateLimit)

/-- `hmac.new(hmac_key, canonical, "sha256").hexdigest()` of a report without its tag. -/
def hexdigest (hmacKey : Bytes) (report : List (String × PyValue)) : Except PyError String := do
  let canonical ← (PyValue.dict report).dumps
  return hexEncode (P.hmacSha256 hmacKey (encodeUtf8 canonical))

/-- The tag of a report is that of the rest of it. -/
def verifyHmac (hmacKey : Bytes) (report : List (String × PyValue)) : Except PyError Unit := do
  match PyValue.find "hmac_sha256" report with
  | none => .error (.value "Report missing 'hmac_sha256' field")
  | some .none => .error (.value "Report missing 'hmac_sha256' field")
  | some providedHmac =>
    let expectedHmac ← hexdigest P hmacKey (PyValue.remove "hmac_sha256" report)
    let provided := providedHmac.toStr P.repr
    if provided.toList.all (·.toNat < 128) = false then
      .error (.other "TypeError" "comparing strings with non-ASCII characters is not supported")
    else if expectedHmac ≠ provided then
      .error (.value "HMAC verification failed — report may have been tampered with")
    else .ok ()

/-- Hand a message to the chat. -/
def asyncSend (inv : Invocation) (reporter : CrashReporter) (text : String) : R Unit := do
  let token ← Comp.ofExcept (loadToken P inv reporter.tokenSource reporter.tokenEnvVar)
  Comp.ofExcept (inv.telegram token reporter.chatId text)

/-- The report as the formatter sees it: the tag was taken out and put back at the end. -/
def restored (report : List (String × PyValue)) : List (String × PyValue) :=
  match PyValue.find "hmac_sha256" report with
  | some providedHmac => PyValue.remove "hmac_sha256" report ++ [("hmac_sha256", providedHmac)]
  | none => report

/-- The last half of `send_report`: format and send a verified report, and record when. -/
def deliver (inv : Invocation) (reporter : CrashReporter) (installId : String)
    (report : List (String × PyValue)) : R Bool := do
  let messageText := formatReport P (restored report)
  modify fun s => { s with attempted := s.attempted ++ [messageText] }
  asyncSend P inv reporter messageText
  let now ← monotonic inv
  modify fun s => { s with
    lastSent := (installId, now) :: s.lastSent.filter (·.1 ≠ installId)
    delivered := s.delivered ++ [(now, messageText)] }
  return true

/-- Send a crash report: `true` when it was delivered, `false` when it is rate-limited. -/
def sendReport (inv : Invocation) (reporter : CrashReporter) (report : List (String × PyValue))
    (hmacKey : Bytes) : R Bool := do
  let installId := field P report "installation_id" ""
  if ← isRateLimited inv installId then
    -- the log line says when the next report is allowed
    let _ ← monotonic inv
    return false
  Comp.ofExcept (verifyHmac P hmacKey report)
  deliver P inv reporter installId report

/-! ## Config loading helpers -/

/-- Load and parse the configuration: its top-level members. -/
def loadYamlConfig (configPath : String) (config : Except PyError String) :
    Except PyError (List (String × PyValue)) := do
  let raw ← config.mapError fun e => match e with
    | .os exc => .runtime s!"Cannot read config file {configPath}: {exc}"
    | e => e
  let parsed ← (P.safeLoad raw).mapError fun e => match e with
    | .other "YAMLError" exc => .runtime s!"Invalid YAML in {configPath}: {exc}"
    | e => e
  match parsed with
  | .dict ms =>
    if (PyValue.find "synqro" ms).isSome then return ms
    else .error (.runtime s!"Config missing top-level 'synqro' key: {configPath}")
  | _ => .error (.runtime s!"Config missing top-level 'synqro' key: {configPath}")

/-- Load and parse a JSON crash report file. -/
def loadReportFile (reportPath : String) (report : Except PyError String) :
    Except PyError (List (String × PyValue)) := do
  let raw ← report.mapError fun e => match e with
    | .os exc => .runtime s!"Cannot read report file {reportPath}: {exc}"
    | e => e
  let data ← (P.jsonLoads raw).mapError fun e => match e with
    | .other "JSONDecodeError" exc => .runtime s!"Invalid JSON in report file {reportPath}: {exc}"
    | e => e
  match data with
  | .dict ms => return ms
  | _ => .error (.runtime s!"Report file must contain a JSON object: {reportPath}")

/-! ## The entry point -/

/-- Set the log level by its name. -/
def configureLogging : PyValue → Except PyError Unit
  | .str level => P.setLevel level
  | _ => .error (.other "AttributeError" "object has no attribute 'upper'")

/-- The log level: the argument, or the configuration's. -/
def logLevel (inv : Invocation) (synqroCfg : PyValue) : Except PyError PyValue :=
  match inv.logLevel with
  | some level => if level ≠ "" then .ok (.str level) else fromConfig
  | none => fromConfig
where
  fromConfig := do (← synqroCfg.get "logging" (.dict [])).get "level" (.str "warn")

/-- The key for the configured name, which has to be a text. -/
def hmacKeyOf : PyValue → Except PyError Bytes
  | .str installationId => .ok (deriveHmacKey P installationId)
  | _ => .error (.other "AttributeError" "object has no attribute 'encode'")

/-- Report a crash with the loaded report: the exit code. -/
def reportCrash (inv : Invocation) (reportingCfg installationId : PyValue)
    (report : List (String × PyValue)) : R Nat := do
  let scrubPatterns ← Comp.ofExcept (reportingCfg.get "scrub_patterns" (.list []))
  let patterns ← Comp.ofExcept scrubPatterns.iterate
  let report ← Comp.ofExcept (sanitizeReport P report patterns)
  let hmacKey ← Comp.ofExcept (hmacKeyOf P installationId)
  let reporter : CrashReporter := {
    tokenSource := ← Comp.ofExcept (reportingCfg.get "telegram_token_source" (.str "keychain"))
    tokenEnvVar := ← Comp.ofExcept (reportingCfg.get "telegram_token_env_var" (.str ""))
    chatId := (← Comp.ofExcept (reportingCfg.get "telegram_chat_id" (.str ""))).toStr P.repr }
  if reporter.chatId = "" ∨ reporter.chatId = "REPLACE_ME" then return 2
  match ← Comp.outcome (sendReport P inv reporter report hmacKey) with
  | .error _ => return 2
  | .ok false => return 1
  | .ok true => return 0

/-- Run the crash reporter: the exit code. -/
def main (inv : Invocation) : R Nat := do
  match loadYamlConfig P inv.configPath inv.config with
  | .error (.runtime _) => return 2
  | .error e => throw e
  | .ok cfg =>
    let synqroCfg := (PyValue.find "synqro" cfg).getD .none
    Comp.ofExcept (configureLogging P (← Comp.ofExcept (logLevel inv synqroCfg)))
    let reportingCfg ← Comp.ofExcept (synqroCfg.get "reporting" (.dict []))
    let installationId ← Comp.ofExcept (synqroCfg.get "installation_id" (.str ""))
    if installationId.truthy = false ∨ installationId.isStr "REPLACE_ME" then return 2
    if (← Comp.ofExcept (reportingCfg.get "enabled" (.bool false))).truthy = false then return 0
    match loadReportFile P inv.reportPath inv.report with
    | .error (.runtime _) => return 2
    | .error e => throw e
    | .ok report => reportCrash P inv reportingCfg installationId report

/-- A process that has just started. -/
def started : ReporterState := ⟨[], 0, [], []⟩

/-- The exit code of a run: an exception that is not caught ends the process with 1. -/
def exitCode (inv : Invocation) : Nat :=
  match main P inv started with
  | .ok code _ => code
  | .error _ _ => 1

/-- What a run delivered. -/
def deliveries (inv : Invocation) : List (Int × String) :=
  (Comp.after (main P inv) started).delivered

end

end TelegramBot

end Synqro
