import Mathlib.Logic.Function.Basic
import Synqro.Encoding
import Synqro.Error
import Synqro.Lib.Computation

/-!
# Keychains

`src/keychain/macos.rs`, and the half of `src/keychain/linux.rs` that uses `secret-tool`. What the
operating system keeps is a map; at each call an `Answer` says whether the platform's interface and
the command do their work or fail. `loadSecret_eq_iff` says when a secret comes back as it was
stored.
-/

namespace Synqro

namespace Keychain

/-- What the operating system keeps: a secret for a service and an account. -/
abbrev SecretStore := String × String → Option Bytes

/-- The keychain's computations. -/
abbrev K := Comp SecretStore SynqroError

/-- The exit code of a command, if it was not killed, and what it printed. -/
structure Output where
  code : Option Int
  stdout : Bytes

def Output.success (output : Output) : Bool := output.code = some 0

/-- How running a command ends: it does its work, it exits with a failure, or it cannot be started,
fed or waited for. A command that fails may have done its work. -/
inductive CommandAnswer where
  | works
  | exits (code : Option Int) (failed : code ≠ some 0) (took : Bool)
  | fails (error : SynqroError) (took : Bool)

/-- How a call of the platform's interface ends. -/
inductive ApiAnswer where
  | works
  | fails (code : Int) (took : Bool)

/-- What a call of the keychain meets. -/
structure Answer where
  api : ApiAnswer
  cli : CommandAnswer

/-- Run a command whose work on the store is known. -/
def runWithTimeout (answer : CommandAnswer)
    (work : SecretStore → Output × SecretStore) : K Output :=
  fun os =>
    match answer with
    | .works => .ok (work os).1 (work os).2
    | .exits code _ took => .ok ⟨code, []⟩ (if took then (work os).2 else os)
    | .fails error took => .error error (if took then (work os).2 else os)

/-- Call the platform's interface; its errors are codes. -/
def callApi {α : Type} (answer : ApiAnswer) (work : SecretStore → Except Int α × SecretStore) :
    Comp SecretStore Int α :=
  fun os =>
    match answer with
    | .works =>
      match work os with
      | (.ok a, os') => .ok a os'
      | (.error code, os') => .error code os'
    | .fails code took => .error code (if took then (work os).2 else os)

/-- `errSecItemNotFound`. -/
def itemNotFound : Int := -25300

/-- Drop a newline at the end. -/
def trimNewline (bytes : Bytes) : Bytes :=
  if bytes.getLast? = some 10 then bytes.dropLast else bytes

/-! ## macOS -/

/-- `get_generic_password`. -/
def getGenericPassword (answer : ApiAnswer) (service account : String) :
    Comp SecretStore Int Bytes :=
  callApi answer fun os =>
    match os (service, account) with
    | some password => (.ok password, os)
    | none => (.error itemNotFound, os)

/-- `set_generic_password`. -/
def setGenericPassword (answer : ApiAnswer) (service account : String) (secret : Bytes) :
    Comp SecretStore Int Unit :=
  callApi answer fun os => (.ok (), Function.update os (service, account) (some secret))

/-- `delete_generic_password`. -/
def deleteGenericPassword (answer : ApiAnswer) (service account : String) :
    Comp SecretStore Int Unit :=
  callApi answer fun os =>
    match os (service, account) with
    | some _ => (.ok (), Function.update os (service, account) none)
    | none => (.error itemNotFound, os)

/-- `security find-generic-password -w` prints the password and a newline. -/
def findGenericPassword (service account : String) (os : SecretStore) : Output × SecretStore :=
  match os (service, account) with
  | some password => (⟨some 0, password ++ [10]⟩, os)
  | none => (⟨some 44, []⟩, os)

/-- `security add-generic-password -U` stores its `-w` argument. -/
def addGenericPassword (service account w : String) (os : SecretStore) : Output × SecretStore :=
  (⟨some 0, []⟩, Function.update os (service, account) (some (utf8 w)))

/-- `security delete-generic-password`. -/
def removeGenericPassword (service account : String) (os : SecretStore) : Output × SecretStore :=
  match os (service, account) with
  | some _ => (⟨some 0, []⟩, Function.update os (service, account) none)
  | none => (⟨some 44, []⟩, os)

def macosCliLoad (answer : CommandAnswer) (service account : String) : K Bytes := do
  let output ← runWithTimeout answer (findGenericPassword service account)
  if !output.success then
    throw (.Keychain "security find-generic-password: item not found or keychain locked")
  return trimNewline output.stdout

/-- The secret is passed in hexadecimal digits. -/
def macosCliStore (answer : CommandAnswer) (service account : String)
    (secret : Bytes) : K Unit := do
  let secretHex := hexEncode secret
  let output ← runWithTimeout answer (addGenericPassword service account secretHex)
  if !output.success then
    throw (.Keychain "security add-generic-password: store operation failed")

def macosCliDelete (answer : CommandAnswer) (service account : String) : K Unit := do
  let output ← runWithTimeout answer (removeGenericPassword service account)
  if output.code = some 0 ∨ output.code = some 44 then return
  throw (.Keychain "security delete-generic-password: operation failed")

namespace Macos

def loadSecret (answer : Answer) (service account : String) : K Bytes := do
  match ← Comp.outcome (getGenericPassword answer.api service account) with
  | .ok passwordBytes => return passwordBytes
  | .error errCode =>
    if errCode = itemNotFound then
      throw <| .Keychain <|
        s!"macOS Keychain: item not found for service='{service}' account='{account}'"
    macosCliLoad answer.cli service account

def storeSecret (answer : Answer) (service account : String) (secret : Bytes) : K Unit := do
  match ← Comp.outcome (setGenericPassword answer.api service account secret) with
  | .ok () => return
  | .error _ => macosCliStore answer.cli service account secret

def deleteSecret (answer : Answer) (service account : String) : K Unit := do
  match ← Comp.outcome (deleteGenericPassword answer.api service account) with
  | .ok () => return
  | .error errCode =>
    if errCode = itemNotFound then return
    macosCliDelete answer.cli service account

end Macos

/-! ## Linux with `secret-tool` -/

/-- `secret-tool lookup` prints the secret. -/
def lookup (service account : String) (os : SecretStore) : Output × SecretStore :=
  match os (service, account) with
  | some secret => (⟨some 0, secret⟩, os)
  | none => (⟨some 1, []⟩, os)

/-- `secret-tool store` stores what it reads. -/
def store (service account : String) (stdin : Bytes) (os : SecretStore) : Output × SecretStore :=
  (⟨some 0, []⟩, Function.update os (service, account) (some stdin))

/-- `secret-tool clear`. -/
def clear (service account : String) (os : SecretStore) : Output × SecretStore :=
  (⟨some 0, []⟩, Function.update os (service, account) none)

def secretToolLookup (answer : CommandAnswer) (service account : String) : K Bytes := do
  let output ← runWithTimeout answer (lookup service account)
  if !output.success then
    throw (.Keychain "secret-tool lookup: entry not found or keyring locked")
  return trimNewline output.stdout

def secretToolStore (answer : CommandAnswer) (service account : String)
    (secret : Bytes) : K Unit := do
  let output ← runWithTimeout answer (store service account secret)
  if !output.success then throw (.Keychain "secret-tool store: operation failed")

def secretToolClear (answer : CommandAnswer) (service account : String) : K Unit := do
  let output ← runWithTimeout answer (clear service account)
  if !output.success then throw (.Keychain "secret-tool clear: operation failed")

/-! ## The provider -/

inductive Backend where
  | Macos
  | SecretTool

def loadSecret : Backend → Answer → String → String → K Bytes
  | .Macos, answer => Macos.loadSecret answer
  | .SecretTool, answer => secretToolLookup answer.cli

def storeSecret : Backend → Answer → String → String → Bytes → K Unit
  | .Macos, answer => Macos.storeSecret answer
  | .SecretTool, answer => secretToolStore answer.cli

def deleteSecret : Backend → Answer → String → String → K Unit
  | .Macos, answer => Macos.deleteSecret answer
  | .SecretTool, answer => secretToolClear answer.cli

/-- A call of the provider. -/
inductive Call where
  | load (answer : Answer) (service account : String)
  | store (answer : Answer) (service account : String) (secret : Bytes)
  | delete (answer : Answer) (service account : String)

/-- The call stores or deletes the secret of a service and an account. -/
def Call.Changes (key : String × String) : Call → Prop
  | .load _ _ _ => False
  | .store _ service account _ => (service, account) = key
  | .delete _ service account => (service, account) = key

/-- What a call leaves. -/
def Call.run (backend : Backend) (os : SecretStore) : Call → SecretStore
  | .load answer service account => Comp.after (loadSecret backend answer service account) os
  | .store answer service account secret =>
    Comp.after (storeSecret backend answer service account secret) os
  | .delete answer service account => Comp.after (deleteSecret backend answer service account) os

/-- What calls one after another leave. -/
def runAll (backend : Backend) (os : SecretStore) (calls : List Call) : SecretStore :=
  calls.foldl (Call.run backend) os

/-! ## Other secrets -/

/-- The secret of a service and an account is the one it was. -/
def Keeps (key : String × String) (os os' : SecretStore) : Prop := os' key = os key

section
variable {key : String × String}

instance : Std.Refl (Keeps key) := ⟨fun _ => rfl⟩

instance : IsTrans SecretStore (Keeps key) := ⟨fun _ _ _ h h' => h'.trans h⟩

theorem keeps_update {k : String × String} (h : k ≠ key) (os : SecretStore) (v : Option Bytes) :
    Keeps key os (Function.update os k v) := Function.update_of_ne h.symm _ _

theorem runWithTimeout_keeps {answer : CommandAnswer} {work : SecretStore → Output × SecretStore}
    (h : ∀ os, Keeps key os (work os).2) :
    Comp.Respects (Keeps key) (runWithTimeout answer work) := by
  intro os
  cases answer with
  | works => exact h os
  | exits code failed took =>
    cases took with
    | false => exact refl os
    | true => exact h os
  | fails error took =>
    cases took with
    | false => exact refl os
    | true => exact h os

theorem callApi_keeps {α : Type} {answer : ApiAnswer}
    {work : SecretStore → Except Int α × SecretStore}
    (h : ∀ os, Keeps key os (work os).2) : Comp.Respects (Keeps key) (callApi answer work) := by
  intro os
  have hwork := h os
  unfold Comp.after callApi
  cases answer with
  | works =>
    rcases hw : work os with ⟨result, os'⟩
    rw [hw] at hwork
    cases result with
    | ok a => exact hwork
    | error code => exact hwork
  | fails code took =>
    cases took with
    | false => exact refl os
    | true => exact hwork

/-- What a command's exit code makes of a call leaves the store alone. -/
theorem exit_keeps {α : Type} {failed : Prop} [Decidable failed] {error : SynqroError} {x : K α}
    (hx : Comp.Respects (Keeps key) x) :
    Comp.Respects (Keeps key) (do
      if failed then throw error
      x : K α) := by
  split
  · exact .throw _
  · exact hx

theorem loadSecret_keeps (backend : Backend) (answer : Answer) (service account : String) :
    Comp.Respects (Keeps key) (loadSecret backend answer service account) := by
  cases backend with
  | Macos =>
    refine .bind (.outcome (callApi_keeps fun os => ?_)) fun result => ?_
    · split
      · exact refl os
      · exact refl os
    · cases result with
      | ok passwordBytes => exact .pure _
      | error errCode =>
        refine exit_keeps (.bind (runWithTimeout_keeps fun os => ?_) fun output => ?_)
        · unfold findGenericPassword
          split
          · exact refl os
          · exact refl os
        · exact exit_keeps (.pure _)
  | SecretTool =>
    refine .bind (runWithTimeout_keeps fun os => ?_) fun output => ?_
    · unfold lookup
      split
      · exact refl os
      · exact refl os
    · exact exit_keeps (.pure _)

/-- A store for another service or account keeps the secret. -/
theorem storeSecret_keeps {service account : String} (h : (service, account) ≠ key)
    (backend : Backend) (answer : Answer) (secret : Bytes) :
    Comp.Respects (Keeps key) (storeSecret backend answer service account secret) := by
  cases backend with
  | Macos =>
    refine .bind (.outcome (callApi_keeps fun os => keeps_update h os _)) fun result => ?_
    cases result with
    | ok u => exact .pure _
    | error errCode =>
      refine .bind (runWithTimeout_keeps fun os => keeps_update h os _) fun output => ?_
      exact exit_keeps (.pure _)
  | SecretTool =>
    refine .bind (runWithTimeout_keeps fun os => keeps_update h os _) fun output => ?_
    exact exit_keeps (.pure _)

/-- So does a deletion. -/
theorem deleteSecret_keeps {service account : String} (h : (service, account) ≠ key)
    (backend : Backend) (answer : Answer) :
    Comp.Respects (Keeps key) (deleteSecret backend answer service account) := by
  cases backend with
  | Macos =>
    refine .bind (.outcome (callApi_keeps fun os => ?_)) fun result => ?_
    · split
      · exact keeps_update h os _
      · exact refl os
    · cases result with
      | ok u => exact .pure _
      | error errCode =>
        have hcli : Comp.Respects (Keeps key) (macosCliDelete answer.cli service account) := by
          refine .bind (runWithTimeout_keeps fun os => ?_) fun output => ?_
          · unfold removeGenericPassword
            split
            · exact keeps_update h os _
            · exact refl os
          · split
            · exact .pure _
            · exact .throw _
        dsimp only
        split
        · exact .pure _
        · exact hcli
  | SecretTool =>
    refine .bind (runWithTimeout_keeps fun os => keeps_update h os _) fun output => ?_
    exact exit_keeps (.pure _)

theorem Call.run_keeps {backend : Backend} {c : Call} (h : ¬ c.Changes key) (os : SecretStore) :
    Keeps key os (c.run backend os) := by
  cases c with
  | load answer service account => exact loadSecret_keeps backend answer service account os
  | store answer service account secret => exact storeSecret_keeps h backend answer secret os
  | delete answer service account => exact deleteSecret_keeps h backend answer os

/-- Calls that do not change the secret keep it. -/
theorem runAll_keeps {backend : Backend} {calls : List Call} (h : ∀ c ∈ calls, ¬ c.Changes key)
    (os : SecretStore) : Keeps key os (runAll backend os calls) := by
  induction calls generalizing os with
  | nil => exact refl os
  | cons c calls ih =>
    have hstep : Keeps key os (c.run backend os) := Call.run_keeps (h c (.head _)) os
    have hrest := ih (fun c' hc' => h c' (.tail _ hc')) (c.run backend os)
    exact hrest.trans hstep

end

/-! ## The secret that comes back -/

/-- What a store leaves under its service and account. -/
def storedForm (secret : Bytes) : Backend → ApiAnswer → Bytes
  | .Macos, .works => secret
  | .Macos, .fails _ _ => utf8 (hexEncode secret)
  | .SecretTool, _ => secret

/-- What a load makes of it. -/
def loadedForm (stored : Bytes) : Backend → Bytes
  | .Macos => stored
  | .SecretTool => trimNewline stored

/-- The condition for a secret to come back: on macOS that the interface stored it, or that it is
empty; with `secret-tool` that it does not end in a newline. -/
def RoundTrips (secret : Bytes) : Backend → Answer → Prop
  | .Macos, answer => answer.api = .works ∨ secret = []
  | .SecretTool, _ => secret.getLast? ≠ some 10

section
variable {service account : String} {secret bytes : Bytes} {os os' : SecretStore}

/-- A command that ended with success did its work. -/
theorem runWithTimeout_success {answer : CommandAnswer} {work : SecretStore → Output × SecretStore}
    {output : Output} (h : runWithTimeout answer work os = .ok output os')
    (hsuccess : output.success = true) : work os = (output, os') := by
  cases answer with
  | works =>
    cases h
    rfl
  | exits code failed took =>
    cases h
    exact absurd (of_decide_eq_true hsuccess) failed
  | fails error took => cases h

/-- A call that checks the exit code and returns saw a success. -/
theorem command_ok {α : Type} {answer : CommandAnswer} {work : SecretStore → Output × SecretStore}
    {error : SynqroError} {f : Output → α} {a : α}
    (h : (do
      let output ← runWithTimeout answer work
      if !output.success then throw error
      return f output : K α) os = .ok a os') :
    ∃ output, work os = (output, os') ∧ output.success = true ∧ f output = a := by
  obtain ⟨output, os₁, hrun, hrest⟩ := Comp.bind_ok.1 h
  cases hs : output.success with
  | false =>
    rw [hs] at hrest
    cases hrest
  | true =>
    rw [hs] at hrest
    cases hrest
    exact ⟨output, runWithTimeout_success hrun hs, hs, rfl⟩

theorem setGenericPassword_ok {answer : ApiAnswer}
    (h : setGenericPassword answer service account secret os = .ok () os') :
    answer = .works ∧ os' (service, account) = some secret := by
  cases answer with
  | works =>
    cases h
    exact ⟨rfl, Function.update_self ..⟩
  | fails code took => cases h

theorem setGenericPassword_error {answer : ApiAnswer} {code : Int}
    (h : setGenericPassword answer service account secret os = .error code os') :
    ∃ took, answer = .fails code took := by
  cases answer with
  | works => cases h
  | fails code took =>
    cases h
    exact ⟨took, rfl⟩

theorem storeSecret_ok {backend : Backend} {answer : Answer}
    (h : storeSecret backend answer service account secret os = .ok () os') :
    os' (service, account) = some (storedForm secret backend answer.api) := by
  cases backend with
  | Macos =>
    obtain ⟨result, os₁, houtcome, hrest⟩ := Comp.bind_ok.1 h
    rcases Comp.outcome_ok.1 houtcome with ⟨u, rfl, hapi⟩ | ⟨code, rfl, hapi⟩
    · obtain ⟨hanswer, hstored⟩ := setGenericPassword_ok hapi
      cases hrest
      rw [hanswer]
      exact hstored
    · obtain ⟨took, hanswer⟩ := setGenericPassword_error hapi
      obtain ⟨output, hwork, -⟩ := command_ok hrest
      cases hwork
      rw [hanswer]
      exact Function.update_self ..
  | SecretTool =>
    obtain ⟨output, hwork, -⟩ := command_ok h
    cases hwork
    exact Function.update_self ..

theorem getGenericPassword_ok {answer : ApiAnswer}
    (h : getGenericPassword answer service account os = .ok bytes os') :
    os (service, account) = some bytes := by
  unfold getGenericPassword callApi at h
  cases answer with
  | works =>
    dsimp only at h
    cases hs : os (service, account) with
    | none =>
      rw [hs] at h
      cases h
    | some password =>
      rw [hs] at h
      cases h
      rfl
  | fails code took => cases h

/-- A failing interface leaves the store as it is when it only reads. -/
theorem getGenericPassword_error {answer : ApiAnswer} {code : Int}
    (h : getGenericPassword answer service account os = .error code os') : os' = os := by
  have hframe : ∀ key, Keeps key os os' := fun key => by
    refine Comp.Respects.error (callApi_keeps fun os => ?_) h
    split
    · exact refl os
    · exact refl os
  funext key
  exact hframe key

theorem trimNewline_append (bytes : Bytes) : trimNewline (bytes ++ [10]) = bytes := by
  rw [trimNewline, List.getLast?_concat, if_pos rfl, List.dropLast_concat]

theorem trimNewline_eq_iff : trimNewline bytes = bytes ↔ bytes.getLast? ≠ some 10 := by
  unfold trimNewline
  split
  · next h =>
    refine iff_of_false (fun heq => ?_) (not_not.2 h)
    have hlength := congrArg List.length heq
    rw [List.length_dropLast] at hlength
    have hempty : bytes = [] := List.length_eq_zero_iff.1 (by omega)
    subst hempty
    cases h
  · next h => exact iff_of_true rfl h

theorem loadSecret_ok {backend : Backend} {answer : Answer}
    (h : loadSecret backend answer service account os = .ok bytes os') :
    ∃ stored, os (service, account) = some stored ∧ bytes = loadedForm stored backend := by
  cases backend with
  | Macos =>
    obtain ⟨result, os₁, houtcome, hrest⟩ := Comp.bind_ok.1 h
    rcases Comp.outcome_ok.1 houtcome with ⟨password, rfl, hapi⟩ | ⟨code, rfl, hapi⟩
    · have hstored := getGenericPassword_ok hapi
      cases hrest
      exact ⟨bytes, hstored, rfl⟩
    · have hsame := getGenericPassword_error hapi
      subst hsame
      by_cases hcode : code = itemNotFound
      · simp only [hcode, if_true] at hrest
        cases hrest
      · simp only [hcode, if_false] at hrest
        obtain ⟨output, hwork, hsuccess, rfl⟩ := command_ok hrest
        unfold findGenericPassword at hwork
        cases hs : os₁ (service, account) with
        | none =>
          rw [hs] at hwork
          cases hwork
          cases hsuccess
        | some stored =>
          rw [hs] at hwork
          cases hwork
          exact ⟨stored, rfl, trimNewline_append stored⟩
  | SecretTool =>
    obtain ⟨output, hwork, hsuccess, rfl⟩ := command_ok h
    unfold lookup at hwork
    cases hs : os (service, account) with
    | none =>
      rw [hs] at hwork
      cases hwork
      cases hsuccess
    | some stored =>
      rw [hs] at hwork
      cases hwork
      exact ⟨_, rfl, rfl⟩

theorem length_utf8_hexEncode (secret : Bytes) :
    (utf8 (hexEncode secret)).length = 2 * secret.length := by
  have hdigit (n : Nat) (hn : n < 16) : (String.utf8EncodeChar (Nat.digitChar n)).length = 1 := by
    have hall : ∀ n < 16, (String.utf8EncodeChar (Nat.digitChar n)).length = 1 := by decide
    exact hall n hn
  rw [hexEncode, utf8_ofList, encodeUtf8]
  induction secret with
  | nil => rfl
  | cons x secret ih =>
    have hx := x.toNat_lt
    rw [List.flatMap_cons, List.flatMap_append, List.length_append, ih, List.flatMap_cons,
      List.flatMap_cons, List.flatMap_nil, List.length_append, List.length_append,
      hdigit _ (by omega), hdigit _ (by omega), List.length_nil, List.length_cons]
    omega

/-- The digits of a secret are the secret only when there are none. -/
theorem utf8_hexEncode_eq_iff : utf8 (hexEncode secret) = secret ↔ secret = [] := by
  constructor
  · intro h
    have hlength := length_utf8_hexEncode secret
    rw [h] at hlength
    exact List.length_eq_zero_iff.1 (by omega)
  · rintro rfl
    rfl

/-- What comes back of a stored secret is the secret exactly when it round-trips. -/
theorem loadedForm_storedForm (backend : Backend) (answer : Answer) :
    loadedForm (storedForm secret backend answer.api) backend = secret ↔
      RoundTrips secret backend answer := by
  cases backend with
  | Macos =>
    rw [RoundTrips]
    cases answer.api with
    | works => exact iff_of_true rfl (.inl rfl)
    | fails code took =>
      rw [or_iff_right ApiAnswer.noConfusion]
      exact utf8_hexEncode_eq_iff
  | SecretTool => exact trimNewline_eq_iff

/-- **The secret that comes back.** A load that returns after a store that did, with no call between
them that changes the secret, returns it exactly when it round-trips. -/
theorem loadSecret_eq_iff {backend : Backend} {storing loading : Answer} {calls : List Call}
    {os os₁ os₂ : SecretStore}
    (hstore : storeSecret backend storing service account secret os = .ok () os₁)
    (hcalls : ∀ c ∈ calls, ¬ c.Changes (service, account))
    (hload : loadSecret backend loading service account
      (runAll backend os₁ calls) = .ok bytes os₂) :
    bytes = secret ↔ RoundTrips secret backend storing := by
  have hkept : runAll backend os₁ calls (service, account) = os₁ (service, account) :=
    runAll_keeps hcalls os₁
  obtain ⟨stored, hstored, rfl⟩ := loadSecret_ok hload
  rw [hkept, storeSecret_ok hstore] at hstored
  cases hstored
  exact loadedForm_storedForm backend storing

/-- A secret goes through the interface on macOS and back through the command, another being
stored between. -/
theorem loadSecret_eq_iff_fallback : [1, 10] = ([1, 10] : Bytes) ↔
    RoundTrips [1, 10] .Macos ⟨.works, .works⟩ :=
  @loadSecret_eq_iff "synqro" "github_token" [1, 10] [1, 10] .Macos ⟨.works, .works⟩
    ⟨.fails (-25293) false, .works⟩ [.store ⟨.works, .works⟩ "synqro" "telegram_token" [2]]
    (fun _ => none) _ _ rfl (by simp [Call.Changes]) rfl

/-- A token that was stored through the command on macOS comes back in hexadecimal digits. -/
theorem storeSecret_hex :
    ∃ os, storeSecret .Macos ⟨.fails (-25293) false, .works⟩ "synqro" "github_token" [1, 10]
        (fun _ => none) = .ok () os ∧
      loadSecret .Macos ⟨.works, .works⟩ "synqro" "github_token" os =
        .ok (utf8 "010a") os ∧ utf8 "010a" ≠ [1, 10] :=
  ⟨_, rfl, rfl, by decide⟩

end

end Keychain

end Synqro
