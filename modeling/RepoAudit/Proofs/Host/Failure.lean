import RepoAudit.Host.Client
import RepoAudit.Proofs.Partial

/-!
# Whose failures the failures of a client are

A client tells of the host in failures of its own. Four failures are not: an address that is none, JSON that is beyond
what is read, a counter that is no count, and an entry whose type is a collection. They are foreign, and come of what
the client uses. What follows says of each question when its answer is a foreign failure: it can be one for the text
of the reply, whatever was asked, and for the value in it where the repository or the tree was asked for.
-/

namespace RepoAudit.Host

/-- True of the failures that are none of the client's own. -/
def Failure.isForeign : Failure → Bool
  | .badAddress _ => true
  | .excessive _ => true
  | .badCount _ => true
  | .badEntryType _ => true
  | _ => false

/-- True of the failures that tell of something that is not there. -/
def Failure.isAbsence : Failure → Bool
  | .notFound _ => true
  | .noRepository _ _ => true
  | _ => false

/-- The computation ends with a failure of the kind. -/
def Fails {α : Type} (kind : Failure → Bool) (result : Except Failure α) : Prop :=
  ∃ failure, result = .error failure ∧ kind failure = true

section Fails

variable {α β : Type} {kind : Failure → Bool} {result : Except Failure α} {next : α → Except Failure β}

@[simp]
lemma not_fails_ok (value : α) : ¬ Fails kind (.ok value) := by
  rintro ⟨failure, is, -⟩
  cases is

@[simp]
lemma fails_error_iff {failure : Failure} : Fails kind (.error failure : Except Failure α) ↔ kind failure = true := by
  constructor
  · rintro ⟨other, is, holds⟩
    cases is
    exact holds
  · exact fun holds => ⟨failure, rfl, holds⟩

lemma not_fails_error {failure : Failure} (other : kind failure = false) :
    ¬ Fails kind (.error failure : Except Failure α) := by
  simp [other]

lemma fails_bind_iff :
    Fails kind (result >>= next) ↔ Fails kind result ∨ ∃ value, result = .ok value ∧ Fails kind (next value) := by
  cases result with
  | error failure =>
    show Fails kind (.error failure) ↔ _
    simp
  | ok value =>
    show Fails kind (next value) ↔ _
    simp

/-- Computations one after another, of which the second never fails so. -/
lemma fails_bind_iff_left (safe : ∀ value, ¬ Fails kind (next value)) :
    Fails kind (result >>= next) ↔ Fails kind result := by
  simp [fails_bind_iff, safe]

/-- One computation for each item of a list, each of which fails so or not at all. -/
lemma fails_mapM_iff {f : α → Except Failure β} {items : List α}
    (fails : ∀ item ∈ items, Fails kind (f item) ∨ ∃ value, f item = .ok value) :
    Fails kind (items.mapM f) ↔ ∃ item ∈ items, Fails kind (f item) := by
  induction items with
  | nil => simp [pure, Except.pure]
  | cons item items ih =>
    have others := ih fun other later => fails other (.tail _ later)
    have after : ∀ value, Fails kind (items.mapM f >>= fun values => pure (value :: values)) ↔
        ∃ item ∈ items, Fails kind (f item) := fun value =>
      (fails_bind_iff_left fun values => not_fails_ok _).trans others
    rw [List.mapM_cons, fails_bind_iff]
    simp only [after, List.mem_cons, exists_eq_or_imp]
    rcases fails item List.mem_cons_self with first | ⟨value, first⟩
    · simp [first]
    · simp [first]

end Fails

/-! ### The text of a reply -/

/-- The text is JSON beyond what is read. -/
def Overtaxing (text : List Char) : Prop :=
  ∃ error, Json.read (String.ofList text) = .error error ∧ error.isExcessive = true

lemma foreign_readJson_iff {text : List Char} :
    Fails Failure.isForeign (readJson text) ↔ Overtaxing text := by
  unfold readJson Overtaxing
  cases Json.read (String.ofList text) with
  | ok value => simp
  | error error => cases error <;> simp [Failure.isForeign, Json.ReadError.isExcessive]

lemma not_overtaxing_nil : ¬ Overtaxing [] := by
  rintro ⟨error, fails, excessive⟩
  have empty : Json.read (String.ofList []) = .error (.malformed .expectingValue 0) := rfl
  rw [empty] at fails
  cases fails
  cases excessive

lemma foreign_detailOf_iff {body : Option (List UInt8)} {reason : String} :
    Fails Failure.isForeign (detailOf body reason) ↔ Overtaxing (Utf8.decodeSkipping (body.getD [])) := by
  unfold detailOf
  generalize Utf8.decodeSkipping (body.getD []) = text
  cases text with
  | nil =>
    have quiet := not_overtaxing_nil
    simpa [pure, Except.pure, bind, Except.bind] using quiet
  | cons char chars =>
    show Fails Failure.isForeign (readJson (char :: chars) >>= _) ↔ _
    rw [fails_bind_iff_left, foreign_readJson_iff]
    exact fun value => not_fails_ok _

/-- A reply with a text beyond what is read: the answer itself, or the body of a refusal in which a message is
sought. -/
inductive Outcome.Overtaxing : Outcome → Prop where
  | answer {body : List UInt8} {text : List Char} (decoded : Utf8.decode body = .ok text)
      (beyond : Host.Overtaxing text) : Overtaxing (.answer body)
  | refusal {code : Int} {body : Option (List UInt8)} {reason : String} (other : code ≠ 404)
      (beyond : Host.Overtaxing (Utf8.decodeSkipping (body.getD []))) : Overtaxing (.refusal code body reason)

/-- The answer is JSON, and this is its value. -/
inductive Outcome.Tells : Outcome → Json → Prop where
  | answer {body : List UInt8} {text : List Char} {value : Json} (decoded : Utf8.decode body = .ok text)
      (read : Json.read (String.ofList text) = .ok value) : Tells (.answer body) value

section Outcome

variable {address : String} {timeout : Timeout} {body : List UInt8} {text : List Char}

lemma json_undecodable {error : Utf8.Undecodable} (decoded : Utf8.decode body = .error error) :
    (Outcome.answer body).json address timeout = .error .notJson := by
  rw [Outcome.json, decoded]

lemma json_decoded (decoded : Utf8.decode body = .ok text) :
    (Outcome.answer body).json address timeout =
      match Json.read (String.ofList text) with
      | .ok value => .ok value
      | .error error => .error (if error.isExcessive then .excessive error else .notJson) := by
  rw [Outcome.json, decoded]
  show readJson text >>= _ = _
  unfold readJson
  cases Json.read (String.ofList text) with
  | ok value => rfl
  | error error => cases error <;> rfl

lemma foreign_answer_iff :
    Fails Failure.isForeign ((Outcome.answer body).json address timeout) ↔ (Outcome.answer body).Overtaxing := by
  cases decoded : Utf8.decode body with
  | error error =>
    rw [json_undecodable decoded]
    refine ⟨fun foreign => absurd foreign (not_fails_error rfl), ?_⟩
    rintro ⟨decodes, -⟩
    cases decoded.symm.trans decodes
  | ok text =>
    have beyond : (Outcome.answer body).Overtaxing ↔ Overtaxing text := by
      refine ⟨?_, .answer decoded⟩
      rintro ⟨decodes, beyond⟩
      exact Except.ok.inj (decodes.symm.trans decoded) ▸ beyond
    rw [beyond, Overtaxing, json_decoded decoded]
    cases Json.read (String.ofList text) with
    | ok value => simp
    | error error => cases error <;> simp [Failure.isForeign, Json.ReadError.isExcessive]

lemma json_missing {body : Option (List UInt8)} {reason : String} :
    (Outcome.refusal 404 body reason).json address timeout = .error (.notFound address) := by
  simp [Outcome.json]

lemma foreign_refusal_iff {code : Int} {body : Option (List UInt8)} {reason : String} :
    Fails Failure.isForeign ((Outcome.refusal code body reason).json address timeout) ↔
      (Outcome.refusal code body reason).Overtaxing := by
  by_cases missing : code = 404
  · rw [missing, json_missing]
    refine ⟨fun foreign => absurd foreign (not_fails_error rfl), ?_⟩
    rintro (- | ⟨other, -⟩)
    exact absurd rfl other
  · have beyond : (Outcome.refusal code body reason).Overtaxing ↔
        Overtaxing (Utf8.decodeSkipping (body.getD [])) := by
      refine ⟨?_, .refusal missing⟩
      rintro (- | ⟨-, beyond⟩)
      exact beyond
    show Fails Failure.isForeign (if code = 404 then _ else detailOf body reason >>= _) ↔ _
    rw [if_neg missing, fails_bind_iff, foreign_detailOf_iff, beyond]
    simp [Failure.isForeign]

lemma foreign_json_iff {outcome : Outcome} :
    Fails Failure.isForeign (outcome.json address timeout) ↔ outcome.Overtaxing := by
  cases outcome with
  | answer body => exact foreign_answer_iff
  | refusal code body reason => exact foreign_refusal_iff
  | unreachable reason =>
    exact ⟨fun foreign => absurd foreign (not_fails_error rfl), nofun⟩
  | timedOut => exact ⟨fun foreign => absurd foreign (not_fails_error rfl), nofun⟩

lemma json_eq_ok_iff {outcome : Outcome} {value : Json} :
    outcome.json address timeout = .ok value ↔ outcome.Tells value := by
  constructor
  · intro tells
    cases outcome with
    | answer body =>
      cases decoded : Utf8.decode body with
      | error error =>
        rw [json_undecodable decoded] at tells
        cases tells
      | ok text =>
        rw [json_decoded decoded] at tells
        cases read : Json.read (String.ofList text) with
        | error error =>
          rw [read] at tells
          cases tells
        | ok other =>
          rw [read] at tells
          cases tells
          exact .answer decoded read
    | refusal code body reason =>
      replace tells : (if code = 404 then _ else detailOf body reason >>= _) = _ := tells
      split at tells
      · cases tells
      · obtain ⟨detail, -, refused⟩ := exists_of_bind_ok tells
        cases refused
    | unreachable reason => cases tells
    | timedOut => cases tells
  · rintro ⟨decoded, read⟩
    rw [json_decoded decoded, read]

end Outcome

/-! ### The value of a reply -/

/-- The values that are no counts: a text that is no integer, a number that is not finite, and a collection that holds
something. A value that is not truthy counts as zero. -/
inductive Uncountable : Json → Prop where
  | text {s : String} {error : Number.IntegerError} (filled : s ≠ "")
      (unread : Number.readInteger s = .error error) : Uncountable (.text s)
  | double {x : Double} {error : Double.NotFinite} (unending : x.truncate = .error error) : Uncountable (.double x)
  | array (item : Json) (items : List Json) : Uncountable (.array (item :: items))
  | object (member : String × Json) (members : List (String × Json)) : Uncountable (.object (member :: members))

lemma orElse_of_filled {s : String} (filled : s ≠ "") : (Json.text s).orElse (.integer 0) = .text s :=
  if_pos (by simp [Json.isTruthy, filled])

lemma countOf_orElse {value : Json} :
    (∃ error, countOf (value.orElse (.integer 0)) = .error error) ↔ Uncountable value := by
  constructor
  · rintro ⟨error, fails⟩
    cases value with
    | null => cases fails
    | bool b => cases b <;> cases fails
    | integer n =>
      unfold Json.orElse at fails
      split at fails <;> cases fails
    | double x =>
      cases x with
      | finite negative m q =>
        unfold Json.orElse at fails
        split at fails <;> cases fails
      | infinite negative => exact .double rfl
      | nan => exact .double rfl
    | text s =>
      by_cases filled : s = ""
      · subst filled
        cases fails
      · rw [orElse_of_filled filled] at fails
        cases unread : Number.readInteger s with
        | error error => exact .text filled unread
        | ok n =>
          rw [countOf, unread] at fails
          cases fails
    | array items =>
      cases items with
      | nil => cases fails
      | cons item items => exact .array item items
    | object members =>
      cases members with
      | nil => cases fails
      | cons member members => exact .object member members
  · intro uncountable
    cases uncountable with
    | @text s error filled unread =>
      rw [orElse_of_filled filled, countOf, unread]
      exact ⟨_, rfl⟩
    | @double x error unending =>
      cases x with
      | finite negative m q => cases unending
      | infinite negative => exact ⟨_, rfl⟩
      | nan => exact ⟨_, rfl⟩
    | array item items => exact ⟨_, rfl⟩
    | object member members => exact ⟨_, rfl⟩

/-- A member of an answer in the place of a count. -/
lemma foreign_countAt_iff {name : String} {value : Json} :
    Fails Failure.isForeign (countAt name value) ↔ Uncountable (value.getD name) := by
  rw [← countOf_orElse, countAt]
  cases countOf ((value.getD name).orElse (.integer 0)) with
  | ok n => simp [Except.mapError]
  | error error => simp [Except.mapError, Failure.isForeign]

lemma exists_countAt_iff {name : String} {value : Json} :
    (∃ n, countAt name value = .ok n) ↔ ¬ Uncountable (value.getD name) := by
  rw [← countOf_orElse, countAt]
  cases countOf ((value.getD name).orElse (.integer 0)) with
  | ok n => simp [Except.mapError]
  | error error => simp [Except.mapError]

/-- The members of a repository's answer that are counts. -/
def counters : List String := ["stargazers_count", "forks_count", "open_issues_count", "size"]

/-- The answer about a repository has a counter that is no count. -/
def Miscounted (value : Json) : Prop :=
  (∃ members, value = .object members) ∧ ∃ name ∈ counters, Uncountable (value.getD name)

lemma foreign_snapshotOf_iff {value : Json} : Fails Failure.isForeign (snapshotOf value) ↔ Miscounted value := by
  cases value with
  | object members =>
    -- A counter is looked at only after those before it were counts.
    simp only [snapshotOf, fails_bind_iff, foreign_countAt_iff, exists_and_right, exists_countAt_iff, pure,
      Except.pure, not_fails_ok, and_false]
    simp only [Miscounted, counters, List.mem_cons, List.not_mem_nil, or_false, exists_eq_or_imp, exists_eq_left,
      Json.object.injEq, exists_eq', true_and]
    tauto
  | _ =>
    refine ⟨fun foreign => absurd foreign (not_fails_error rfl), ?_⟩
    rintro ⟨⟨members, is⟩, -⟩
    cases is

/-- A collection in the place of an entry's type. -/
inductive Collection : Json → Prop where
  | array (items : List Json) : Collection (.array items)
  | object (members : List (String × Json)) : Collection (.object members)

/-- The answer about a tree has an entry whose type is a collection. -/
def Mistyped (value : Json) : Prop :=
  ∃ items, value.getD "tree" = .array items ∧
    ∃ members, Json.object members ∈ items ∧ Collection ((Json.object members).getD "type")

lemma foreign_entryOf_iff {item : Json} :
    Fails Failure.isForeign (entryOf item) ↔ (∃ members, item = .object members) ∧ Collection (item.getD "type") := by
  cases item with
  | object members =>
    unfold entryOf
    simp only [Json.object.injEq, exists_eq', true_and]
    cases (Json.object members).getD "type" with
    | array items => exact ⟨fun _ => .array items, fun _ => ⟨_, rfl, rfl⟩⟩
    | object others => exact ⟨fun _ => .object others, fun _ => ⟨_, rfl, rfl⟩⟩
    | text s =>
      refine ⟨fun foreign => ?_, nofun⟩
      split at foreign <;> cases foreign <;> simp_all
    | _ => exact ⟨fun foreign => absurd foreign (not_fails_ok _), nofun⟩
  | _ =>
    refine ⟨fun foreign => absurd foreign (not_fails_ok _), ?_⟩
    rintro ⟨⟨members, is⟩, -⟩
    cases is

lemma foreign_or_entryOf (item : Json) :
    Fails Failure.isForeign (entryOf item) ∨ ∃ entry, entryOf item = .ok entry := by
  unfold entryOf
  split
  · split
    · exact .inr ⟨_, rfl⟩
    · exact .inr ⟨_, rfl⟩
    · exact .inl ⟨_, rfl, rfl⟩
    · exact .inl ⟨_, rfl, rfl⟩
    · exact .inr ⟨_, rfl⟩
  · exact .inr ⟨_, rfl⟩

lemma foreign_treeOf_iff {value : Json} : Fails Failure.isForeign (treeOf value) ↔ Mistyped value := by
  unfold treeOf Mistyped
  cases value.getD "tree" with
  | array items =>
    show Fails Failure.isForeign (items.mapM entryOf >>= _) ↔ _
    rw [fails_bind_iff, fails_mapM_iff fun item _ => foreign_or_entryOf item]
    simp only [foreign_entryOf_iff, pure, Except.pure, not_fails_ok, and_false, exists_false, or_false,
      Json.array.injEq, exists_eq_left']
    constructor
    · rintro ⟨item, listed, ⟨members, rfl⟩, collection⟩
      exact ⟨members, listed, collection⟩
    · rintro ⟨members, listed, collection⟩
      exact ⟨_, listed, ⟨members, rfl⟩, collection⟩
  | _ =>
    refine ⟨fun foreign => absurd foreign (not_fails_error rfl), ?_⟩
    rintro ⟨items, is, -⟩
    cases is

lemma not_foreign_languagesOf (value : Json) : ¬ Fails Failure.isForeign (languagesOf value) := by
  cases value with
  | object members => exact not_fails_ok _
  | _ => exact not_fails_error rfl

lemma not_foreign_contentOf (path : String) (value : Json) : ¬ Fails Failure.isForeign (contentOf path value) := by
  unfold contentOf
  cases value.get? "content" with
  | none => exact not_fails_error rfl
  | some content =>
    dsimp only
    split
    · exact not_fails_error rfl
    · split
      · exact not_fails_error rfl
      · exact not_fails_ok _

/-! ### The answer to a question -/

/-- The reply to a question. -/
def Client.reply (client : Client) (question : Question) : Except BadAddress Outcome :=
  (Request.of client.settings question).map client.send

/-- A question strays when its address is none, when the text of the reply is beyond what is read, and when the value
in it is odd. -/
inductive Client.Strays (client : Client) (question : Question) (odd : Json → Prop) : Prop where
  | unaddressed {error : BadAddress} (bad : client.reply question = .error error)
  | overtaxing {outcome : Outcome} (replies : client.reply question = .ok outcome) (beyond : outcome.Overtaxing)
  | odd {outcome : Outcome} {value : Json} (replies : client.reply question = .ok outcome)
      (tells : outcome.Tells value) (is : odd value)

lemma ask_eq (client : Client) (question : Question) :
    client.ask question = match client.reply question with
      | .error error => .error (.badAddress error)
      | .ok outcome => outcome.json (addressOf client.settings question) client.settings.timeout := by
  unfold Client.ask Client.reply
  cases Request.of client.settings question <;> rfl

/-- A question whose answer is taken for something else. -/
lemma foreign_ask_iff {α : Type} {client : Client} {question : Question} {next : Json → Except Failure α} :
    Fails Failure.isForeign (client.ask question >>= next) ↔
      client.Strays question fun value => Fails Failure.isForeign (next value) := by
  rw [fails_bind_iff, ask_eq]
  constructor
  · cases reply : client.reply question with
    | error error => exact fun _ => .unaddressed reply
    | ok outcome =>
      rintro (foreign | ⟨value, tells, foreign⟩)
      · exact .overtaxing reply (foreign_json_iff.mp foreign)
      · exact .odd reply (json_eq_ok_iff.mp tells) foreign
  · rintro (bad | ⟨replies, beyond⟩ | ⟨replies, tells, foreign⟩)
    · rw [bad]
      exact .inl ⟨_, rfl, rfl⟩
    · rw [replies]
      exact .inl (foreign_json_iff.mpr beyond)
    · rw [replies]
      exact .inr ⟨_, json_eq_ok_iff.mpr tells, foreign⟩

/-- A repository that is not there has a failure of its own, which is none of the foreign ones. -/
lemma foreign_repository_iff {client : Client} {owner name : String} :
    Fails Failure.isForeign (client.repository owner name) ↔
      Fails Failure.isForeign (client.ask (.repository owner name) >>= snapshotOf) := by
  unfold Client.repository
  cases client.ask (.repository owner name) with
  | ok value => rfl
  | error failure =>
    cases failure with
    | notFound address => exact iff_of_false (not_fails_error rfl) (not_fails_error rfl)
    | _ => rfl

/-! ### A repository that is not there -/

lemma not_absence_readJson (text : List Char) : ¬ Fails Failure.isAbsence (readJson text) := by
  unfold readJson
  cases Json.read (String.ofList text) with
  | ok value => exact not_fails_ok _
  | error error =>
    cases error with
    | malformed problem position => exact not_fails_ok _
    | _ => exact not_fails_error rfl

lemma not_absence_detailOf (body : Option (List UInt8)) (reason : String) :
    ¬ Fails Failure.isAbsence (detailOf body reason) := by
  unfold detailOf
  generalize Utf8.decodeSkipping (body.getD []) = text
  cases text with
  | nil => exact not_fails_ok _
  | cons char chars =>
    show ¬ Fails _ (readJson (char :: chars) >>= _)
    rw [fails_bind_iff_left]
    · exact not_absence_readJson _
    · exact fun value => not_fails_ok _

lemma refusal_of_absence_json {address : String} {timeout : Timeout} {outcome : Outcome}
    (absent : Fails Failure.isAbsence (outcome.json address timeout)) :
    ∃ body reason, outcome = .refusal 404 body reason := by
  cases outcome with
  | answer body =>
    cases decoded : Utf8.decode body with
    | error error =>
      rw [json_undecodable decoded] at absent
      exact absurd absent (not_fails_error rfl)
    | ok text =>
      rw [json_decoded decoded] at absent
      cases read : Json.read (String.ofList text) with
      | ok value =>
        rw [read] at absent
        exact absurd absent (not_fails_ok value)
      | error error =>
        rw [read] at absent
        cases error <;> exact absurd absent (not_fails_error rfl)
  | refusal code body reason =>
    by_cases missing : code = 404
    · exact ⟨body, reason, by rw [missing]⟩
    · replace absent : Fails _ (if code = 404 then _ else detailOf body reason >>= _) := absent
      rw [if_neg missing, fails_bind_iff_left fun detail => not_fails_error rfl] at absent
      exact absurd absent (not_absence_detailOf body reason)
  | unreachable reason => exact absurd absent (not_fails_error rfl)
  | timedOut => exact absurd absent (not_fails_error rfl)

lemma not_absence_snapshotOf (value : Json) : ¬ Fails Failure.isAbsence (snapshotOf value) := by
  have counts : ∀ name, ¬ Fails Failure.isAbsence (countAt name value) := fun name => by
    unfold countAt
    cases countOf ((value.getD name).orElse (.integer 0)) with
    | ok n => exact not_fails_ok n
    | error error => exact not_fails_error rfl
  cases value with
  | object members =>
    simp only [snapshotOf, fails_bind_iff, counts, pure, Except.pure, not_fails_ok, and_false, exists_false, or_false,
      not_false_eq_true]
  | _ => exact not_fails_error rfl

/-- A repository is told to be missing just when the host refuses with the code for that. -/
lemma noRepository_iff {client : Client} {owner name : String} :
    (∃ owner' name', client.repository owner name = .error (.noRepository owner' name')) ↔
      ∃ body reason, client.reply (.repository owner name) = .ok (.refusal 404 body reason) := by
  constructor
  · rintro ⟨owner', name', missing⟩
    have absent : Fails Failure.isAbsence (client.ask (.repository owner name)) := by
      unfold Client.repository at missing
      cases asked : client.ask (.repository owner name) with
      | ok value =>
        rw [asked] at missing
        exact absurd ⟨_, missing, rfl⟩ (not_absence_snapshotOf value)
      | error failure =>
        rw [asked] at missing
        cases failure <;> cases missing <;> exact ⟨_, rfl, rfl⟩
    rw [ask_eq] at absent
    cases replies : client.reply (.repository owner name) with
    | error error =>
      rw [replies] at absent
      exact absurd absent (not_fails_error rfl)
    | ok outcome =>
      rw [replies] at absent
      obtain ⟨body, reason, rfl⟩ := refusal_of_absence_json absent
      exact ⟨body, reason, rfl⟩
  · rintro ⟨body, reason, replies⟩
    obtain ⟨address, missing⟩ : ∃ address, client.ask (.repository owner name) = .error (.notFound address) := by
      rw [ask_eq, replies]
      exact ⟨_, json_missing⟩
    refine ⟨owner, name, ?_⟩
    unfold Client.repository
    rw [missing]

/-- A question of a client ends with a value, with a failure of the client's own, or it strays: the address is none,
the text of the reply is beyond what is read, a counter of the repository is no count, or the type of an entry of the
tree is a collection. -/
theorem fails_foreign_iff_strays (client : Client) (owner name ref path : String) :
    (Fails Failure.isForeign (client.repository owner name) ↔ client.Strays (.repository owner name) Miscounted) ∧
      (Fails Failure.isForeign (client.languages owner name) ↔
        client.Strays (.languages owner name) fun _ => False) ∧
      (Fails Failure.isForeign (client.tree owner name ref) ↔ client.Strays (.tree owner name ref) Mistyped) ∧
      (Fails Failure.isForeign (client.file owner name path) ↔
        client.Strays (.file owner name path) fun _ => False) ∧
      ((∃ owner' name', client.repository owner name = .error (.noRepository owner' name')) ↔
        ∃ body reason, client.reply (.repository owner name) = .ok (.refusal 404 body reason)) := by
  refine ⟨?_, ?_, ?_, ?_, noRepository_iff⟩
  · rw [foreign_repository_iff, foreign_ask_iff]
    simp only [foreign_snapshotOf_iff]
  · rw [Client.languages, foreign_ask_iff]
    simp only [not_foreign_languagesOf]
  · rw [Client.tree, foreign_ask_iff]
    simp only [foreign_treeOf_iff]
  · rw [Client.file, foreign_ask_iff]
    simp only [not_foreign_contentOf]

/-- A text in the place of a counter. -/
example : Miscounted (.object [("stargazers_count", .text "many")]) :=
  ⟨⟨_, rfl⟩, "stargazers_count", .head _, .text (by decide) rfl⟩

end RepoAudit.Host
