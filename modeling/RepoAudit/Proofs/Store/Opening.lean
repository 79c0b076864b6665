import RepoAudit.Proofs.Store.Decoded

/-!
# Opening files

Of any file a store is opened, unless its octets are no text or its text is JSON beyond what is read
(`Ledger.Refused`): what is no document gives no records, and a member that is no record is left out
(`Ledger.files_are_opened_unless_refused`). Scans that the file says are running are ended then, and only then: opening
the file again finds the same records and leaves it (`Ledger.interrupted_scans_end_once`).
-/

namespace RepoAudit

open Json (Legible)

namespace Store

/-- True of the documents whose records are read. -/
def isCurrent (document : Json) : Bool := (document.getD "version").equalsInteger version

/-- What a store has of a text: no records where the text is no document of this version, and else of each id the
record that the member of that id is, whatever the other members are. -/
structure Reflects (store : Store) (text : String) : Prop where
  void : (∀ document, Json.read text = .ok document → isCurrent document = false) →
    store.audits = [] ∧ store.findings = []
  audits : ∀ document, Json.read text = .ok document → isCurrent document = true →
    ∀ id, store.audit? id = ((document.getD "audits").get? id).bind (AuditRecord.ofJson? id)
  findings : ∀ document, Json.read text = .ok document → isCurrent document = true →
    ∀ id, store.finding? id = ((document.getD "findings").get? id).bind (FindingRecord.ofJson? id)

/-- A record is found under an id just when the member of that id is one. -/
lemma find?_recordsOf {α : Type} (key : α → String) (record? : String → Json → Option α)
    (under : ∀ name value record, record? name value = some record → key record = name) {depth : Nat} {value : Json}
    (legible : Legible (depth + 1) value) (id : String) :
    (recordsOf record? value).find? (key · == id) = (value.get? id).bind (record? id) := by
  cases value with
  | object members =>
    obtain ⟨distinct, -⟩ := legible.of_member
    apply Option.ext
    intro record
    rw [find?_eq_some_iff_mem key (recordsOf_legible key record? under legible).2, recordsOf, List.mem_filterMap,
      Json.get?, Option.bind_eq_some_iff]
    constructor
    · rintro ⟨⟨⟨name, value⟩, present, is⟩, rfl⟩
      rw [under _ _ _ is]
      exact ⟨value, (Json.get?_of_mem distinct).mpr present, is⟩
    · rintro ⟨value, found, is⟩
      exact ⟨⟨(id, value), (Json.get?_of_mem distinct).mp found, is⟩, under _ _ _ is⟩
  | _ => rfl

lemma reflects_ofDocument {text : String} {document : Json} (reads : Json.read text = .ok document)
    (path : Option Path) : (ofDocument path document).Reflects text := by
  have part (name : String) : Legible (fieldDepth + 2) (document.getD name) := (Json.legible_read reads).getD name
  have only {other : Json} (reads' : Json.read text = .ok other) : document = other :=
    Except.ok.inj (reads.symm.trans reads')
  refine ⟨fun none => ?_, fun other reads' current id => ?_, fun other reads' current id => ?_⟩
  · have other : (document.getD "version").equalsInteger version = false := none document reads
    rw [ofDocument, other]
    exact ⟨rfl, rfl⟩
  · obtain rfl := only reads'
    unfold isCurrent at current
    rw [ofDocument, if_pos current]
    exact find?_recordsOf AuditRecord.id AuditRecord.ofJson? (fun name value audit is => (AuditRecord.of_ofJson? is).1)
      (part "audits") id
  · obtain rfl := only reads'
    unfold isCurrent at current
    rw [ofDocument, if_pos current]
    exact find?_recordsOf FindingRecord.id FindingRecord.ofJson? (fun name value finding is =>
      FindingRecord.of_ofJson? is) (part "findings") id

/-- A store without records reflects what is no JSON. -/
lemma reflects_of_error {text : String} {error : Json.ReadError} (reads : Json.read text = .error error)
    (path : Option Path) : ({ path } : Store).Reflects text := by
  have never {document : Json} (reads' : Json.read text = .ok document) : False := by
    rw [reads] at reads'
    cases reads'
  exact ⟨fun _ => ⟨rfl, rfl⟩, fun _ reads' => (never reads').elim, fun _ reads' => (never reads').elim⟩

/-- Of the same records the same are running. -/
lemma Same.idle {store other : Store} (same : store.Same other)
    (idle : ∀ audit ∈ store.audits, audit.isRunning = false) : ∀ audit ∈ other.audits, audit.isRunning = false := by
  intro audit stored
  obtain ⟨old, present, is⟩ := List.mem_map.mp (same.audits.mem_iff.mp (List.mem_map_of_mem stored))
  rw [← audit.isRunning_settled, ← is, old.isRunning_settled]
  exact idle old present

end Store

namespace Ledger

/-! ## Files that are refused -/

/-- Octets of which no store is opened, with the failure: they are no text, or a text that is JSON as far as it is
read, but has too long an integer or is nested too deeply. -/
inductive Refused (octets : List UInt8) : StoreError → Prop
  | undecodable {error : Utf8.Undecodable} : Utf8.decode octets = .error error → Refused octets (.undecodable error)
  | integerTooLong {text : List Char} {digits : Nat} : Utf8.decode octets = .ok text →
    Json.read (String.ofList text) = .error (.integerTooLong digits) →
    Refused octets (.excessive (.integerTooLong digits))
  | tooDeep {text : List Char} {inArray : Bool} : Utf8.decode octets = .ok text →
    Json.read (String.ofList text) = .error (.tooDeep inArray) →
    Refused octets (.excessive (.tooDeep inArray))

section Read

variable {disk : Disk} {path : Path} {octets : List UInt8} (holds : disk.read path = .ok octets)
include holds

lemma readStore_of_refused {error : StoreError} (refused : Refused octets error) :
    readStore disk path = .error error := by
  rw [readStore, holds]
  cases refused with
  | undecodable decodes => simp only [decodes]
  | integerTooLong decodes reads => simp only [decodes, reads]
  | tooDeep decodes reads => simp only [decodes, reads]

/-- What is not refused is read as a store that reflects it. -/
lemma readStore_of_not_refused (welcome : ∀ error, ¬ Refused octets error) :
    ∃ text kept, Utf8.decode octets = .ok text ∧ readStore disk path = .ok kept ∧
      kept.Reflects (String.ofList text) := by
  cases decodes : Utf8.decode octets with
  | error error => exact absurd (.undecodable decodes) (welcome _)
  | ok text =>
    refine ⟨text, ?_⟩
    cases reads : Json.read (String.ofList text) with
    | ok document =>
      refine ⟨_, rfl, ?_, Store.reflects_ofDocument reads (some path)⟩
      rw [readStore, holds]
      simp only [decodes, reads]
    | error error =>
      cases error with
      | malformed =>
        refine ⟨_, rfl, ?_, Store.reflects_of_error reads (some path)⟩
        rw [readStore, holds]
        simp only [decodes, reads]
      | integerTooLong => exact absurd (.integerTooLong decodes reads) (welcome _)
      | tooDeep => exact absurd (.tooDeep decodes reads) (welcome _)

end Read

/-- Opening a file that can be read takes what was read with its running scans ended, even if it is not written.
Unless a scan is running and the file cannot be written, it does not fail. -/
lemma openStore_tries {ledger : Ledger} {path : Path} {kept : Store} (reads : readStore ledger.disk path = .ok kept) :
    ∃ reply disk, Action.on (openStore (some path)) ledger =
        (reply, { ledger with store := closeRunning ledger.now kept, disk }) ∧ Tried reply () ∧
      (kept.audits.any (·.isRunning) = false ∨ Ready ledger.disk path → reply = .ok ()) := by
  rw [openStore_reads reads]
  split
  · next running =>
    obtain ⟨reply, disk, tried, commits⟩ := commit_on (closeRunning ledger.now kept) ledger
    refine ⟨reply, disk, commits, tried, ?_⟩
    rintro (idle | ready)
    · rw [running] at idle
      cases idle
    · obtain ⟨located, decoded⟩ := decoded_readStore reads
      have located : (closeRunning ledger.now kept).path = some path := located
      have writable : (closeRunning ledger.now kept).document.isWritable = true :=
        (decoded_closeRunning decoded).legible_document.isWritable
      exact (congrArg Prod.fst commits).symm.trans (commit_of_ready located ready writable)
  · next idle =>
    refine ⟨.ok (), ledger.disk, ?_, .inl rfl, fun _ => rfl⟩
    rw [closeRunning_of_idle ledger.now kept (by simpa using idle)]

/-- Whatever octets a file holds, its store is opened, unless they are refused: then the reason is reported, and nothing
has changed. What is no document of this version gives an empty store. Of a document of this version each id has the
record that its member is, where it is one, with its scan ended. Only where a scan was running and the file cannot be
written the failure of the write is reported, when all that is done. -/
theorem files_are_opened_unless_refused {ledger : Ledger} {path : Path} {octets : List UInt8}
    (holds : ledger.disk.read path = .ok octets) :
    (∀ error, Refused octets error → Action.on (openStore (some path)) ledger = (.error error, ledger)) ∧
    ((∀ error, ¬ Refused octets error) → ∃ text kept reply disk, Utf8.decode octets = .ok text ∧
      kept.Reflects (String.ofList text) ∧
      Action.on (openStore (some path)) ledger =
        (reply, { ledger with store := closeRunning ledger.now kept, disk }) ∧ Tried reply () ∧
      (kept.audits.any (·.isRunning) = false ∨ Ready ledger.disk path → reply = .ok ())) := by
  refine ⟨fun error refused => ?_, fun welcome => ?_⟩
  · have reads := readStore_of_refused holds refused
    simp only [openStore, Action.on_bind, Action.on_get, reads, Action.on_throw]
  · obtain ⟨text, kept, decodes, reads, reflects⟩ := readStore_of_not_refused holds welcome
    obtain ⟨reply, disk, opens, tried, done⟩ := openStore_tries reads
    exact ⟨text, kept, reply, disk, decodes, reflects, opens, tried, done⟩

section Sample

/-- The path of the sample files. -/
def filePath : Path := ⟨true, ["store.json"]⟩

/-- A store that is not opened yet, with a file of some octets. -/
def unopened (octets : List UInt8) : Ledger where
  disk := { entries := [(["store.json"], .file octets)] }
  now := ⟨2024, 1, 1, 0, 0, 0, 0⟩
  ids := fun n => String.ofList (List.replicate n 'i')

/-- A file with an audit whose scan is running and that holds odd values, with an audit that lacks its repository, and
with a finding that is no object. -/
def mixedOctets : List UInt8 := Utf8.encodeText (
  "\x7b\"version\":1.0,\"audits\":\x7b\"b\":\x7b\"id\":\"b\"\x7d,\"a\":\x7b\"id\":\"a\",\"owner_name\":\"o\"," ++
  "\"repo_name\":\"r\",\"status\":\"in_progress\",\"scores\":\x7b\"cicd\":0.50\x7d,\"created_at\":NaN\x7d\x7d," ++
  "\"findings\":\x7b\"f\":[]\x7d\x7d")

lemma mixed_holds : (unopened mixedOctets).disk.read filePath = .ok mixedOctets := rfl

lemma mixed_ready : Ready (unopened mixedOctets).disk filePath :=
  ⟨rfl, ⟨_, rfl, by decide +kernel⟩, ⟨_, rfl, by decide +kernel⟩⟩

lemma mixed_reads : ∃ kept, readStore (unopened mixedOctets).disk filePath = .ok kept ∧
    (kept.audits.map fun audit => (audit.id, audit.isRunning)) = [("a", true)] := by
  have found : ((readStore (unopened mixedOctets).disk filePath).toOption.map fun kept =>
      kept.audits.map fun audit => (audit.id, audit.isRunning)) = some [("a", true)] := by decide +kernel
  cases reads : readStore (unopened mixedOctets).disk filePath with
  | error error =>
    rw [reads] at found
    cases found
  | ok kept =>
    rw [reads] at found
    exact ⟨kept, rfl, Option.some.inj found⟩

/-- The mixed file is opened; a file with an octet that stands in no text is not. -/
theorem files_are_opened_unless_refused_mixed :
    (∃ text kept disk, Utf8.decode mixedOctets = .ok text ∧ kept.Reflects (String.ofList text) ∧
      Action.on (openStore (some filePath)) (unopened mixedOctets) = (.ok (),
        { unopened mixedOctets with store := closeRunning (unopened mixedOctets).now kept, disk })) ∧
    ∃ error, Refused [255] error ∧
      Action.on (openStore (some filePath)) (unopened [255]) = (.error error, unopened [255]) := by
  constructor
  · have welcome : ∀ error, ¬ Refused mixedOctets error := by
      intro error refused
      obtain ⟨kept, reads, -⟩ := mixed_reads
      rw [readStore_of_refused mixed_holds refused] at reads
      cases reads
    obtain ⟨text, kept, reply, disk, decodes, reflects, opens, -, done⟩ :=
      (files_are_opened_unless_refused mixed_holds).2 welcome
    exact ⟨text, kept, disk, decodes, reflects, done (.inr mixed_ready) ▸ opens⟩
  · have holds : (unopened [255]).disk.read filePath = .ok [255] := rfl
    have refused : Refused [255] (.undecodable ⟨.invalidStart, 0, 1, 255⟩) := .undecodable (by decide +kernel)
    exact ⟨_, refused, (files_are_opened_unless_refused holds).1 _ refused⟩

end Sample

/-! ## Scans that were interrupted -/

/-- What opening makes of an audit of the file: a scan that was running is over, with the moment and the reason, and
all else is as it was. -/
structure Ended (now : Instant) (old audit : AuditRecord) : Prop where
  id : audit.id = old.id
  idle : old.isRunning = false → audit = old
  running : old.isRunning = true → audit.status = .text "complete" ∧ audit.scannedAt = .text now.text ∧
    audit.executiveSummary =
      .text "Scan encountered an error: scan interrupted. Some results may be incomplete."
  others : ∀ field, field ∉ closingFields → audit.get field = old.get field

lemma ended_closed (now : Instant) (audit : AuditRecord) : Ended now audit (closed now audit) := by
  refine ⟨id_closed now audit, closed_of_idle now, fun running => ?_, fun field apart => ?_⟩
  · rw [closed, if_pos running]
    exact ⟨rfl, rfl, rfl⟩
  · obtain same | ⟨-, named, -⟩ := get_closed now audit field
    · exact same
    · exact absurd named apart

/-- Where no scan of it is running, a file is opened as it is read, and left. -/
lemma openStore_of_idle {ledger : Ledger} {path : Path} {kept : Store} (reads : readStore ledger.disk path = .ok kept)
    (idle : ∀ audit ∈ kept.audits, audit.isRunning = false) :
    Action.on (openStore (some path)) ledger = (.ok (), { ledger with store := kept }) := by
  rw [openStore_reads reads, if_neg]
  rw [List.any_eq_true]
  rintro ⟨audit, stored, running⟩
  rw [idle audit stored] at running
  cases running

/-- Opening the store of a file ends the scans that the file says are running: they are complete, with the moment and
the reason, and otherwise every audit and every finding is as it was decoded. Opening the file again, at any time,
gives the same records and leaves the file. -/
theorem interrupted_scans_end_once {ledger after : Ledger} {path : Path}
    (opens : Action.on (openStore (some path)) ledger = (.ok (), after)) :
    ∃ kept, readStore ledger.disk path = .ok kept ∧ List.Forall₂ (Ended ledger.now) kept.audits after.store.audits ∧
      after.store.findings = kept.findings ∧ (∀ audit ∈ after.store.audits, audit.isRunning = false) ∧
      ∀ again : Ledger, again.disk = after.disk → ∃ store,
        Action.on (openStore (some path)) again = (.ok (), { again with store }) ∧ after.store.Same store := by
  cases reads : readStore ledger.disk path with
  | error error =>
    simp only [openStore, Action.on_bind, Action.on_get, reads, Action.on_throw] at opens
    cases opens
  | ok kept =>
    have saved : Saved (Action.on (openStore (some path)) ledger).1 := by
      intro error failed
      rw [opens] at failed
      cases failed
    obtain ⟨disk, opens', files⟩ := openStore_on reads saved
    obtain rfl := congrArg Prod.snd (opens.symm.trans opens')
    obtain ⟨located, decoded⟩ := decoded_readStore reads
    have idle : ∀ audit ∈ (closeRunning ledger.now kept).audits, audit.isRunning = false :=
      fun audit stored => isRunning_closeRunning ledger.now kept stored
    refine ⟨kept, rfl, ?_, rfl, idle, fun again same => ?_⟩
    · rw [audits_closeRunning, List.forall₂_map_right_iff]
      exact List.forall₂_same.mpr fun audit _ => ended_closed ledger.now audit
    · -- The file is as it was read, or it has the document of the store that was opened.
      have found : ∃ store, readStore again.disk path = .ok store ∧ (closeRunning ledger.now kept).Same store := by
        rw [same]
        obtain ⟨rfl, still⟩ | written := files
        · rw [still]
          exact ⟨kept, reads, .refl _, .refl _⟩
        · obtain ⟨holds, -⟩ := written path located
          exact readStore_decoded (decoded_closeRunning decoded) holds
      obtain ⟨store, reads', alike⟩ := found
      exact ⟨store, openStore_of_idle reads' (alike.idle idle), alike⟩

/-- The scan of the mixed file is ended. -/
theorem interrupted_scans_end_once_mixed : ∃ kept after,
    Action.on (openStore (some filePath)) (unopened mixedOctets) = (.ok (), after) ∧
    readStore (unopened mixedOctets).disk filePath = .ok kept ∧
    (kept.audits.map fun audit => (audit.id, audit.isRunning)) = [("a", true)] ∧
    List.Forall₂ (Ended (unopened mixedOctets).now) kept.audits after.store.audits ∧
    ∀ again : Ledger, again.disk = after.disk → ∃ store,
      Action.on (openStore (some filePath)) again = (.ok (), { again with store }) ∧ after.store.Same store := by
  obtain ⟨kept, reads, running⟩ := mixed_reads
  obtain ⟨reply, disk, opens, -, done⟩ := openStore_tries reads
  rw [done (.inr mixed_ready)] at opens
  obtain ⟨kept', reads', ended, -, -, again⟩ := interrupted_scans_end_once opens
  obtain rfl : kept = kept' := Except.ok.inj (reads.symm.trans reads')
  exact ⟨kept, _, opens, reads, running, ended, again⟩

end Ledger

end RepoAudit
