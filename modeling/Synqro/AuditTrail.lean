import Synqro.Authenticity
import Synqro.VerifyLog

/-!
# What the verification of the audit log shows

Each line of the log carries a tag of its own, over its own five values. A line that the verifier
takes is one that a log call signed (`AuditLogger.verifyLog_authentic`), whatever stands around it;
and as no tag covers more than its line, a file whose lines are all lines of a log passes with them,
in any order and number (`AuditLogger.verifyLog_altered`). The tags of audit lines, snapshot
manifests and blacklists are made with one key and kept apart by the shapes of the three records
(`records_apart`).
-/

namespace Synqro

/-! ## The values of a line -/

namespace AuditLogLine

/-- The five values that the tag of a line covers. -/
def values (l : AuditLogLine) : String × String × String × String × Json :=
  (l.ts, l.event, l.severity, l.installationId, l.data)

/-- The payload determines the five values. -/
theorem payload_inj {l l' : AuditLogLine} (h : l.payload = l'.payload)
    (hl : Json.value l.data = l.data) (hl' : Json.value l'.data = l'.data) :
    l.values = l'.values := by
  have hts := congrArg (memberOf "ts") h
  have hevent := congrArg (memberOf "event") h
  have hseverity := congrArg (memberOf "severity") h
  have hid := congrArg (memberOf "installation_id") h
  have hdata := congrArg (memberOf "data") h
  simp [memberOf, payload, jsonObject, Json.ofMembers, Json.find_insertMember]
    at hts hevent hseverity hid hdata
  rw [hl, hl'] at hdata
  simp only [values, hts, hevent, hseverity, hid, hdata]

/-- An audit line's payload is no blacklist's. -/
theorem payload_ne_unsignedBlacklist (l : AuditLogLine) (blacklisted : List String) :
    l.payload ≠ unsignedBlacklist blacklisted := by
  intro h
  have hts := congrArg (memberOf "ts") h
  simp [memberOf, payload, unsignedBlacklist, jsonObject, Json.ofMembers,
    Json.find_insertMember] at hts

/-- The data of a line that was read is a value. -/
theorem read_data {j : Json} {l : AuditLogLine} (h : read j = some l) :
    Json.value l.data = l.data := by
  simp only [read, Option.bind_eq_bind, Option.bind_eq_some_iff] at h
  obtain ⟨vs, -, h⟩ := h
  split at h
  · simp only [Option.bind_eq_some_iff, Option.pure_def, Option.some.injEq] at h
    obtain ⟨_, -, _, -, _, -, _, -, _, -, rfl⟩ := h
    exact Json.value_value _
  · cases h

theorem fromSlice_data {E : Externals} {line : Bytes} {l : AuditLogLine}
    (h : fromSlice E read line = .ok l) : Json.value l.data = l.data := by
  unfold fromSlice at h
  split at h
  · cases h
  · split at h
    · next hread => cases h; exact read_data hread
    · cases h

end AuditLogLine

/-- The values that a log call signs, as a line. -/
def AuditLogger.signedLine (logger : AuditLogger) (ts : String) (event : AuditEvent) (data : Json)
    (lineHmac : String) : AuditLogLine where
  ts
  event := event.asStr
  severity := event.severity.asStr
  installationId := logger.installationId
  data := Json.value data
  lineHmac

theorem AuditLogger.payload_eq (logger : AuditLogger) (ts : String) (event : AuditEvent)
    (data : Json) (lineHmac : String) :
    logger.payload ts event data = (logger.signedLine ts event data lineHmac).payload := by
  simp [AuditLogger.payload, AuditLogLine.payload, signedLine, jsonObject]

/-! ## Tags -/

/-- The bytes that the tag of a record covers. -/
def taggedText (record : Json) : Bytes := encodeUtf8 (canonicalJsonSorted record)

/-- The tag of a record under the key. -/
def tagOf (E : Externals) (hmacKey : Bytes) (record : Json) : String :=
  computeHmac E hmacKey (taggedText record)

/-- The tags of the two records under the key differ, unless their texts are the same. -/
def TagsApart (E : Externals) (hmacKey : Bytes) (r r' : Json) : Prop :=
  tagOf E hmacKey r = tagOf E hmacKey r' → taggedText r = taggedText r'

theorem jsonObject_of_taggedText {ms ns : List (String × Json)}
    (h : taggedText (jsonObject ms) = taggedText (jsonObject ns)) : jsonObject ms = jsonObject ns :=
  canonicalJsonSorted_jsonObject_inj (encodeUtf8_inj h)

section
variable {E : Externals} {w w' : World} {logger : AuditLogger}

/-- Among genuine records, only one of a log call has the text of an audit line. -/
theorem Issue.Genuine.of_line {i : Issue} (hi : i.Genuine) {l : AuditLogLine}
    (h : taggedText i.record = taggedText l.payload) : i.signer = .log ∧ i.record = l.payload := by
  obtain ⟨signer, key, record⟩ := i
  cases signer with
  | takeSnapshot =>
    obtain ⟨version, createdAt, files, rfl⟩ := hi
    exact absurd (jsonObject_of_taggedText h) (unsignedManifest_ne_payload _ _ _ _ _ _ _ _)
  | log =>
    obtain ⟨logger, ts, event, data, rfl⟩ := hi
    exact ⟨rfl, jsonObject_of_taggedText h⟩
  | blacklistVersion =>
    obtain ⟨versions, rfl⟩ := hi
    exact absurd (jsonObject_of_taggedText h).symm (l.payload_ne_unsignedBlacklist _)

/-- Among genuine records, only one of `blacklistVersion` has the text of a blacklist. -/
theorem Issue.Genuine.of_blacklist {i : Issue} (hi : i.Genuine) {versions : List String}
    (h : taggedText i.record = taggedText (unsignedBlacklist versions)) :
    i.signer = .blacklistVersion := by
  obtain ⟨signer, key, record⟩ := i
  cases signer with
  | takeSnapshot =>
    obtain ⟨version, createdAt, files, rfl⟩ := hi
    exact absurd (jsonObject_of_taggedText h) (unsignedManifest_ne_unsignedBlacklist _ _ _ _)
  | log =>
    obtain ⟨logger, ts, event, data, rfl⟩ := hi
    rw [AuditLogger.payload_eq logger ts event data ""] at h
    exact absurd (jsonObject_of_taggedText h) (AuditLogLine.payload_ne_unsignedBlacklist _ _)
  | blacklistVersion => rfl

/-- A blacklist that was loaded has the tag of its sorted versions. -/
theorem loadBlacklistRaw_tagged {path : UnixPath} {hmacKey : Bytes} {bl : Blacklist}
    (h : loadBlacklistRaw E path hmacKey w = .ok bl w') :
    tagOf E hmacKey (unsignedBlacklist (bl.blacklisted.insertionSort (· ≤ ·))) = bl.listHmac := by
  simp only [loadBlacklistRaw, Comp.bind_ok, Comp.mapErr_ok, Comp.ofExcept_ok] at h
  obtain ⟨bytes, _, -, bl', _, -, h⟩ := h
  split at h
  · cases h
  · next htag =>
    obtain ⟨rfl, -⟩ := Comp.pure_ok.1 h
    exact tagsEqual_iff.1 (by simpa [tagOf, taggedText] using htag)

/-! ## Lines are authentic -/

/-- A log call under the key signed the five values. -/
def World.Signed (hmacKey : Bytes) (values : String × String × String × String × Json) (w : World) :
    Prop :=
  ∃ (logger : AuditLogger) (ts : String) (event : AuditEvent) (data : Json),
    ⟨.log, hmacKey, logger.payload ts event data⟩ ∈ w.issued ∧
      values = (ts, event.asStr, event.severity.asStr, logger.installationId, Json.value data)

/-- On the lines of a file, a tag is accepted only for a text that was tagged under the key. -/
def World.UnforgedLines (E : Externals) (hmacKey bytes : Bytes) (w : World) : Prop :=
  ∀ line ∈ Lines.lines bytes, ∀ l, fromSlice E AuditLogLine.read line = .ok l → l.Tagged E hmacKey →
    ∃ i ∈ w.issued, i.key = hmacKey ∧ taggedText i.record = taggedText l.payload

theorem AcceptedLine.tagged {hmacKey line : Bytes} (h : AcceptedLine E hmacKey line)
    (hb : isBlank line = false) :
    ∃ l, fromSlice E AuditLogLine.read line = .ok l ∧ l.Tagged E hmacKey := by
  rcases h with h | ⟨-, h⟩
  · rw [hb] at h; cases h
  · exact h

/-- A line whose text was tagged holds values that a log call signed. -/
theorem signed_of_issued (hw : History E w) {hmacKey line : Bytes} {l : AuditLogLine}
    (hl : fromSlice E AuditLogLine.read line = .ok l)
    (h : ∃ i ∈ w.issued, i.key = hmacKey ∧ taggedText i.record = taggedText l.payload) :
    w.Signed hmacKey l.values := by
  obtain ⟨i, hi, rfl, htext⟩ := h
  obtain ⟨hlog, hrecord⟩ := (hw.genuine i hi).of_line htext
  obtain ⟨signer, key, record⟩ := i
  obtain rfl : signer = .log := hlog
  obtain ⟨logger, ts, event, data, rfl⟩ := hw.genuine _ hi
  refine ⟨logger, ts, event, data, hi, ?_⟩
  rw [AuditLogger.payload_eq logger ts event data ""] at hrecord
  exact (AuditLogLine.payload_inj hrecord (Json.value_value data)
    (AuditLogLine.fromSlice_data hl)).symm

/-- The path names a file that holds the bytes. -/
def World.Holds (path : UnixPath) (bytes : Bytes) (w : World) : Prop :=
  ∃ file mode, w.locate path = .ok file ∧ w.files.get file = some (.file bytes mode)

namespace AuditLogger

/-- A file that passes, by what it holds. -/
theorem verifyLog_holds {path : UnixPath} {bytes : Bytes} (hfile : w.Holds path bytes) {n : Nat}
    (h : logger.verifyLog E path w = .ok n w') :
    w.QuietFor ((Lines.lines bytes).length + 2) ∧
      (∀ l ∈ Lines.lines bytes, AcceptedLine E logger.hmacKey l) ∧
      n = min (countLines (Lines.lines bytes)) (E.usizeRange - 1) := by
  obtain ⟨file, mode, hl, hf⟩ := hfile
  obtain ⟨file', bytes', mode', hl', hf', hq, hls, hn, -⟩ := verifyLog_ok.1 h
  obtain rfl : file = file' := Except.ok.inj (hl.symm.trans hl')
  rw [hf] at hf'
  cases hf'
  exact ⟨hq, hls, hn⟩

/-- Whether a file passes, by what it holds. -/
theorem returned_verifyLog {path : UnixPath} {bytes : Bytes} (hfile : w.Holds path bytes) :
    Comp.returned (logger.verifyLog E path w) = true ↔
      w.QuietFor ((Lines.lines bytes).length + 2) ∧
        ∀ l ∈ Lines.lines bytes, AcceptedLine E logger.hmacKey l := by
  constructor
  · intro h
    obtain ⟨n, w', h⟩ := Comp.returned_iff.1 h
    obtain ⟨hq, hls, -⟩ := verifyLog_holds hfile h
    exact ⟨hq, hls⟩
  · rintro ⟨hq, hls⟩
    obtain ⟨file, mode, hl, hf⟩ := hfile
    exact Comp.returned_iff.2 ⟨_, _, verifyLog_ok.2 ⟨file, bytes, mode, hl, hf, hq, hls, rfl, rfl⟩⟩

/-- Lines are authentic: a file that passes has as many lines that are not blank as the verifier
says, up to the largest count; each of them holds five values that a log call under the key signed;
and with these values changed in a line of any file, but not its tag, that file does not pass. -/
theorem verifyLog_authentic (hw : History E w) {path : UnixPath} {bytes : Bytes}
    (hfile : w.Holds path bytes) (hforge : w.UnforgedLines E logger.hmacKey bytes) {n : Nat}
    (h : logger.verifyLog E path w = .ok n w') :
    n = min (countLines (Lines.lines bytes)) (E.usizeRange - 1) ∧
      ∀ line ∈ Lines.lines bytes, isBlank line = false →
        ∃ l, fromSlice E AuditLogLine.read line = .ok l ∧ w.Signed logger.hmacKey l.values ∧
          ∀ v path' bytes', World.Holds path' bytes' v → ∀ line' ∈ Lines.lines bytes',
            isBlank line' = false → ∀ l', fromSlice E AuditLogLine.read line' = .ok l' →
            l'.lineHmac = l.lineHmac → l'.values ≠ l.values →
            TagsApart E logger.hmacKey l'.payload l.payload →
            Comp.returned (logger.verifyLog E path' v) = false := by
  obtain ⟨-, hls, hn⟩ := verifyLog_holds hfile h
  refine ⟨hn, fun line hline hb => ?_⟩
  obtain ⟨l, hl, htag⟩ := (hls line hline).tagged hb
  refine ⟨l, hl, signed_of_issued hw hl (hforge line hline l hl htag), ?_⟩
  intro v path' bytes' hfile' line' hline' hb' l' hl' hsame hne hapart
  rw [Bool.eq_false_iff]
  intro hreturned
  obtain ⟨l'', hl'', htag'⟩ := (((returned_verifyLog hfile').1 hreturned).2 line' hline').tagged hb'
  obtain rfl : l' = l'' := Except.ok.inj (hl'.symm.trans hl'')
  have htext : taggedText l'.payload = taggedText l.payload :=
    hapart (htag'.trans (hsame.trans htag.symm))
  exact hne (AuditLogLine.payload_inj (jsonObject_of_taggedText htext)
    (AuditLogLine.fromSlice_data hl') (AuditLogLine.fromSlice_data hl))

/-! ## Lines are not linked -/

/-- The files that log calls make, whatever becomes of each call. -/
inductive LogFile (E : Externals) (logger : AuditLogger) : Bytes → Prop
  | new : LogFile E logger []
  | log {w : World} (event : AuditEvent) (data : Json) : LogFile E logger w.auditFile.bytes →
      LogFile E logger (Comp.after (logger.log E event data) w).auditFile.bytes

/-- A file of whole lines of a log file, in any order and number, that is not the log file. -/
structure AlteredLog (E : Externals) (logger : AuditLogger) (bytes bytes' : Bytes) : Prop where
  logFile : LogFile E logger bytes
  lines : ∀ l ∈ Lines.lines bytes', l ∈ Lines.lines bytes
  altered : bytes' ≠ bytes

/-- An altered log does not pass exactly when a call of the verifier fails or the log had a line
that is not accepted, and it was kept. -/
theorem verifyLog_altered {bytes bytes' : Bytes} (h : AlteredLog E logger bytes bytes')
    {path : UnixPath} (hfile : w.Holds path bytes') :
    Comp.returned (logger.verifyLog E path w) = false ↔
      ¬ w.QuietFor ((Lines.lines bytes').length + 2) ∨
        ∃ l ∈ Lines.lines bytes, l ∈ Lines.lines bytes' ∧ ¬ AcceptedLine E logger.hmacKey l := by
  rw [Bool.eq_false_iff, Ne, returned_verifyLog hfile, not_and_or]
  refine or_congr_right ?_
  push Not
  exact ⟨fun ⟨l, hl, hn⟩ => ⟨l, h.lines l hl, hl, hn⟩, fun ⟨l, _, hl, hn⟩ => ⟨l, hl, hn⟩⟩

end AuditLogger

/-! ## Records are apart -/

/-- Records of the three kinds are apart: the bytes that audit lines, manifests and blacklists are
tagged over are pairwise different, and a tag that was issued for a record of one kind is on no
record of another kind that the verifier of that kind accepts; the verifier of manifests is what a
rollback loads its snapshot with. -/
theorem records_apart (E : Externals) :
    (∀ (logger : AuditLogger) (ts : String) (event : AuditEvent) (data : Json)
      (version createdAt : String) (files : List FileEntry) (versions : List String),
      taggedText (logger.payload ts event data) ≠
          taggedText (unsignedManifest version createdAt files) ∧
        taggedText (logger.payload ts event data) ≠ taggedText (unsignedBlacklist versions) ∧
        taggedText (unsignedManifest version createdAt files) ≠
          taggedText (unsignedBlacklist versions)) ∧
    ∀ (w : World) (i : Issue), History E w → i ∈ w.issued →
      (i.signer ≠ .log → ∀ (logger : AuditLogger) path bytes (v : World), v.Holds path bytes →
        logger.hmacKey = i.key → Comp.returned (logger.verifyLog E path v) = true →
        ∀ line ∈ Lines.lines bytes, isBlank line = false →
        ∀ l, fromSlice E AuditLogLine.read line = .ok l →
          TagsApart E i.key i.record l.payload → l.lineHmac ≠ tagOf E i.key i.record) ∧
      (i.signer ≠ .takeSnapshot → ∀ version backupDir audit (v : World),
        (∀ m v', loadSnapshot E version (backupDir.join (.ofString s!"v{version}")) i.key audit v =
            .ok m v' →
          TagsApart E i.key i.record (unsignedManifest m.version m.createdAt m.files) →
            m.manifestHmac ≠ tagOf E i.key i.record) ∧
        (Comp.returned (rollback E version backupDir i.key audit v) = true →
          ∃ m v', loadSnapshot E version (backupDir.join (.ofString s!"v{version}")) i.key audit v =
            .ok m v')) ∧
      (i.signer ≠ .blacklistVersion → ∀ path (v v' : World) (bl : Blacklist),
        loadBlacklistRaw E path i.key v = .ok bl v' →
        TagsApart E i.key i.record (unsignedBlacklist (bl.blacklisted.insertionSort (· ≤ ·))) →
          bl.listHmac ≠ tagOf E i.key i.record) := by
  refine ⟨fun logger ts event data version createdAt files versions => ?_, fun w i hw hi => ?_⟩
  · rw [AuditLogger.payload_eq logger ts event data ""]
    exact ⟨fun h => unsignedManifest_ne_payload _ _ _ _ _ _ _ _ (jsonObject_of_taggedText h).symm,
      fun h => AuditLogLine.payload_ne_unsignedBlacklist _ _ (jsonObject_of_taggedText h),
      fun h => unsignedManifest_ne_unsignedBlacklist _ _ _ _ (jsonObject_of_taggedText h)⟩
  have hi := hw.genuine i hi
  refine ⟨?_, ?_, ?_⟩
  · intro hne logger path bytes v hfile hkey hreturned line hline hb l hl hapart htag
    obtain ⟨l', hl', htagged⟩ :=
      (((AuditLogger.returned_verifyLog hfile).1 hreturned).2 line hline).tagged hb
    obtain rfl : l = l' := Except.ok.inj (hl.symm.trans hl')
    rw [hkey] at htagged
    exact hne (hi.of_line (hapart (htag.symm.trans htagged.symm))).1
  · refine fun hne version backupDir audit v =>
      ⟨fun m v' hload hapart htag => ?_, fun hreturned => ?_⟩
    · have htagged := (loadSnapshot_ok.1 hload).2.2.1
      exact hne (hi.of_manifest (encodeUtf8_inj (hapart (htag.symm.trans htagged.symm)))).1
    · obtain ⟨_, _, h⟩ := Comp.returned_iff.1 hreturned
      obtain ⟨m, v', hload, -⟩ := Comp.bind_ok.1 h
      exact ⟨m, v', hload⟩
  · intro hne path v v' bl hload hapart htag
    have htagged := loadBlacklistRaw_tagged hload
    exact hne (hi.of_blacklist (hapart (htag.symm.trans htagged.symm)))

end

/-! ## A log and what is left of it -/

/-- The logger of an installation. -/
def auditor : AuditLogger := ⟨[7], "installation"⟩

/-- The worlds after one and two log calls. -/
def auditedOnce : World :=
  Comp.after (auditor.log .running .SynqroInit (jsonObject [])) (.boot .calm (.startedIn []) .empty)
def auditedTwice : World :=
  Comp.after (auditor.log .running .UpdateApplied (jsonObject [])) auditedOnce

/-- The location of the log that is verified. -/
def auditLoc : Loc := [⟨"audit.log", by decide⟩]

/-- The world with the log on its disk. -/
def World.withLog (w : World) (bytes : Bytes) : World :=
  w.setFiles (FileTree.empty.set auditLoc (.file bytes 0o644))

theorem holds_withLog (w : World) (bytes : Bytes) :
    (w.withLog bytes).Holds (.ofLoc auditLoc) bytes := by
  refine ⟨auditLoc, 0o644, ?_, ?_⟩
  · simp [World.locate]
  · exact FileTree.get_set_self _ (by decide)

/-- Whether every line of the file has a text that was tagged under the key. -/
def World.unforgedLines? (E : Externals) (hmacKey bytes : Bytes) (w : World) : Bool :=
  (Lines.lines bytes).all fun line =>
    match fromSlice E AuditLogLine.read line with
    | .error _ => true
    | .ok l => w.issued.any fun i => i.key == hmacKey && taggedText i.record == taggedText l.payload

theorem World.UnforgedLines.of_check {E : Externals} {hmacKey bytes : Bytes} {w : World}
    (h : w.unforgedLines? E hmacKey bytes = true) : w.UnforgedLines E hmacKey bytes := by
  intro line hline l hl _
  have := List.all_eq_true.1 h line hline
  simp only [hl, List.any_eq_true, Bool.and_eq_true, beq_iff_eq] at this
  exact this

/-- The world with its own log on its disk. -/
def loggedOnce : World := auditedOnce.withLog auditedOnce.auditFile.bytes

theorem history_auditedOnce : History .running auditedOnce := .log _ _ _ (.start rfl)

theorem history_loggedOnce : History .running loggedOnce := .outside history_auditedOnce rfl

/-- A world in which a blacklist was tagged under the logger's key. -/
def blacklistTagged : World :=
  Comp.after (blacklistVersion .running "1.0.0"
    (.ofString "/blacklist.json") auditor.hmacKey auditor)
    (.boot .calm (.startedIn []) .empty)

/-- Whether the record was issued for a blacklist and has another tag than every line of the log. -/
def apartFromLog? (i : Issue) : Bool :=
  i.signer == .blacklistVersion && auditor.hmacKey == i.key &&
    (Lines.lines auditedOnce.auditFile.bytes).all fun line =>
      match fromSlice .running AuditLogLine.read line with
      | .ok l => tagOf .running i.key i.record != tagOf .running i.key l.payload
      | .error _ => true

/-- The log without its first line. -/
def firstLineDeleted : Bytes := Lines.unlines ((Lines.lines auditedTwice.auditFile.bytes).drop 1)

/-- The runs of these logs, evaluated once: the log of one line passes and its line was tagged, with
another tag than a blacklist; the log of two lines without its first one passes too. -/
theorem auditor_runs :
    (Comp.returned (auditor.verifyLog .running (.ofLoc auditLoc) loggedOnce) = true ∧
      loggedOnce.unforgedLines? .running auditor.hmacKey auditedOnce.auditFile.bytes = true ∧
      blacklistTagged.issued.any apartFromLog? = true) ∧
    Lines.lines firstLineDeleted = (Lines.lines auditedTwice.auditFile.bytes).drop 1 ∧
      firstLineDeleted ≠ auditedTwice.auditFile.bytes ∧
      Comp.returned (auditor.verifyLog .running (.ofLoc auditLoc)
        (auditedTwice.withLog firstLineDeleted)) = true := by
  decide +kernel

theorem AuditLogger.verifyLog_authentic_loggedOnce :
    ∃ n w', auditor.verifyLog .running (.ofLoc auditLoc) loggedOnce = .ok n w' ∧
      n = min (countLines (Lines.lines auditedOnce.auditFile.bytes)) (2 ^ 64 - 1) ∧
      ∀ line ∈ Lines.lines auditedOnce.auditFile.bytes, isBlank line = false →
        ∃ l, fromSlice .running AuditLogLine.read line = .ok l ∧
          loggedOnce.Signed auditor.hmacKey l.values := by
  obtain ⟨hreturned, hunforged, -⟩ := auditor_runs.1
  obtain ⟨n, w', hn⟩ := Comp.returned_iff.1 hreturned
  obtain ⟨hcount, hlines⟩ :=
    verifyLog_authentic history_loggedOnce (holds_withLog _ _) (.of_check hunforged) hn
  refine ⟨n, w', hn, hcount, fun line hline hb => ?_⟩
  obtain ⟨l, hl, hsigned, -⟩ := hlines line hline hb
  exact ⟨l, hl, hsigned⟩

theorem records_apart_loggedOnce :
    ∃ i ∈ blacklistTagged.issued, i.signer = .blacklistVersion ∧
      ∀ line ∈ Lines.lines auditedOnce.auditFile.bytes, isBlank line = false →
        ∀ l, fromSlice .running AuditLogLine.read line = .ok l →
          l.lineHmac ≠ tagOf .running i.key i.record := by
  obtain ⟨hreturned, -, hcheck⟩ := auditor_runs.1
  obtain ⟨i, hi, hapart⟩ := List.any_eq_true.1 hcheck
  simp only [apartFromLog?, Bool.and_eq_true, beq_iff_eq, List.all_eq_true] at hapart
  obtain ⟨⟨hsigner, hkey⟩, hlines⟩ := hapart
  refine ⟨i, hi, hsigner, fun line hline hb l hl => ?_⟩
  have hne := hlines line hline
  simp only [hl, bne_iff_ne, ne_eq] at hne
  refine ((records_apart .running).2 _ i (.blacklistVersion _ _ _ _ (.start rfl)) hi).1
    (by simp [hsigner]) auditor (.ofLoc auditLoc) _ loggedOnce (holds_withLog _ _) hkey
    hreturned line hline hb l hl fun h => absurd h hne

theorem firstLineDeleted_altered :
    AuditLogger.AlteredLog .running auditor auditedTwice.auditFile.bytes firstLineDeleted where
  logFile := .log _ _ (.log _ _ .new)
  lines l hl := by
    rw [auditor_runs.2.1] at hl
    exact List.mem_of_mem_drop hl
  altered := auditor_runs.2.2.1

namespace AuditLogger

theorem verifyLog_altered_firstLineDeleted :
    Comp.returned (auditor.verifyLog .running (.ofLoc auditLoc)
        (auditedTwice.withLog firstLineDeleted)) = false ↔
      ¬ (auditedTwice.withLog firstLineDeleted).QuietFor
        ((Lines.lines firstLineDeleted).length + 2) ∨
        ∃ l ∈ Lines.lines auditedTwice.auditFile.bytes, l ∈ Lines.lines firstLineDeleted ∧
          ¬ AcceptedLine .running auditor.hmacKey l :=
  verifyLog_altered firstLineDeleted_altered (holds_withLog _ _)

/-- The log without its first line passes. -/
theorem firstLineDeleted_passes :
    ¬ ∀ (E : Externals) (logger : AuditLogger) (bytes bytes' : Bytes),
      AlteredLog E logger bytes bytes' → ∀ (path : UnixPath) (w : World), w.Holds path bytes' →
        Comp.returned (logger.verifyLog E path w) = false := by
  intro h
  have hfalse := h _ _ _ _ firstLineDeleted_altered _ _ (holds_withLog auditedTwice _)
  rw [auditor_runs.2.2.2] at hfalse
  cases hfalse

end AuditLogger

end Synqro
