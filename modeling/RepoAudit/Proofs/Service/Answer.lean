import RepoAudit.Proofs.Service.Form
import RepoAudit.Proofs.Traffic.Lineage

/-!
# What answers do to findings

Whatever is requested, the service that runs carries its findings on (`Service.runsOn_handle`): what is entered is of
listed words and says that it was not detected, and what is changed keeps what it says about that. A body that does not
fit its form is refused before anything is done.
-/

namespace RepoAudit

/-- A scanner becomes another one, in which findings were entered as is asked for, and in which new scans have only
begun. -/
structure Scanner.CarriesOn (origin : Bool → Prop) (scanner after : Scanner) : Prop where
  engine : after.engine = scanner.engine
  ledger : scanner.world.ledger.CarriesOn origin after.world.ledger
  live : ∀ scan ∈ after.live, scan ∈ scanner.live ∨ scan.program = Scan.run scanner.engine scan.auditId

lemma Scanner.CarriesOn.refl {origin : Bool → Prop} {scanner : Scanner} (orderly : scanner.world.ledger.Orderly) :
    scanner.CarriesOn origin scanner :=
  ⟨rfl, .refl orderly, fun _ => .inl⟩

lemma Scanner.CarriesOn.trans {origin : Bool → Prop} {scanner between after : Scanner}
    (first : scanner.CarriesOn origin between) (second : between.CarriesOn origin after) :
    scanner.CarriesOn origin after := by
  refine ⟨second.engine.trans first.engine, first.ledger.trans second.ledger, fun scan live => ?_⟩
  obtain before | new := second.live scan live
  · exact first.live scan before
  · exact .inr (first.engine ▸ new)

/-- A request for a scan enters nothing, and the scan that is accepted is one that has only begun. -/
lemma Scanner.carriesOn_start {origin : Bool → Prop} {scanner : Scanner} (orderly : scanner.world.ledger.Orderly)
    (auditId : String) : scanner.CarriesOn origin (scanner.start auditId).2 := by
  refine ⟨rfl, (Scan.entering_start.carriesOn orderly).mono fun _ => False.elim, fun scan live => ?_⟩
  simp only [start] at live
  split at live
  · obtain before | new := List.mem_append.mp live
    · exact .inl before
    · obtain rfl := List.mem_singleton.mp new
      exact .inr rfl
  · exact .inl live

namespace Service

/-- A part of an answer that carries the findings on. -/
def Handler.CarriesOn (origin : Bool → Prop) {α : Type} (handler : Handler α) : Prop :=
  ∀ scanner : Scanner, scanner.world.ledger.Orderly → scanner.CarriesOn origin (handler.run.run scanner).2

section Rules

variable {origin : Bool → Prop} {α β : Type}

lemma Handler.CarriesOn.pure (value : α) : Handler.CarriesOn origin (pure value) := fun _ orderly => .refl orderly

lemma Handler.CarriesOn.throw (response : Response) : Handler.CarriesOn origin (throw response : Handler α) :=
  fun _ orderly => .refl orderly

lemma Handler.CarriesOn.bind {first : Handler α} {next : α → Handler β} (one : first.CarriesOn origin)
    (other : ∀ value, (next value).CarriesOn origin) : (first >>= next).CarriesOn origin := by
  intro scanner orderly
  have carries := one scanner orderly
  rw [ExceptT.run_bind, StateT.run_bind]
  generalize first.run.run scanner = result at carries ⊢
  obtain ⟨response | value, between⟩ := result
  · exact carries
  · exact carries.trans (other value between carries.ledger.orderly)

lemma run_get_bind (next : Scanner → Handler α) (scanner : Scanner) :
    (get >>= next).run.run scanner = (next scanner).run.run scanner := rfl

/-- Once the scanner is set to one that it carries to, the answer goes on from there. -/
lemma carriesOn_set {scanner after : Scanner} {next : PUnit → Handler α} (first : scanner.CarriesOn origin after)
    (rest : (next ⟨⟩).CarriesOn origin) : scanner.CarriesOn origin ((set after >>= next).run.run scanner).2 :=
  first.trans (rest after first.ledger.orderly)

/-- What is done to the store is an errand. -/
lemma carriesOn_errand {errand : Errand} (enters : errand.Enters origin) (failure : StoreError → Response) :
    (onStoreOr failure errand.action).CarriesOn origin := by
  intro scanner orderly
  have carries : scanner.CarriesOn origin (scanner.onStore errand.action).2 :=
    ⟨rfl, Errand.carriesOn enters orderly, fun _ => .inl⟩
  rw [onStoreOr, run_get_bind]
  split
  next result after does =>
  rw [does] at carries
  refine carriesOn_set carries ?_
  cases result with
  | ok reply => exact .pure _
  | error error => exact .throw _

/-- A view of a record changes nothing. -/
lemma carriesOn_view (form : Form) (record : Json) : (view form record).CarriesOn origin := by
  unfold view
  split
  · exact .pure _
  · exact .throw _

lemma carriesOn_shown (status : Nat) (form : Form) (record : Json) : (shown status form record).CarriesOn origin :=
  .bind (carriesOn_view form record) fun _ => .pure _

lemma carriesOn_shownAll (form : Form) (records : List Json) : (shownAll form records).CarriesOn origin := by
  refine .bind ?_ fun _ => .pure _
  induction records with
  | nil => exact .pure _
  | cons record records ih =>
    rw [List.mapM_cons]
    exact .bind (carriesOn_view form record) fun _ => .bind ih fun _ => .pure _

lemma carriesOn_requireAudit (id : String) : (requireAudit id).CarriesOn origin := by
  refine .bind (@carriesOn_errand _ (.getAudit id) trivial _) ?_
  rintro (_ | audit)
  · exact .throw _
  · exact .pure _

end Rules

section Requests

variable {body : Json}

lemma carriesOn_createAudit (body : Json) : (createAudit body).CarriesOn (· = false) := by
  unfold createAudit
  dsimp only
  split
  · exact .throw _
  · exact .bind (@carriesOn_errand _ (.createAudit _ _ _) trivial _) fun audit => carriesOn_shown _ _ _

lemma carriesOn_deleteAudit (id : String) : (deleteAudit id).CarriesOn (· = false) := by
  refine .bind (@carriesOn_errand _ (.deleteAudit id) trivial _) fun there => ?_
  split
  · exact .pure _
  · exact .throw _

/-- A finding that a person enters is of listed words, and it is not detected. -/
lemma enters_enteredFinding {raw : Json} (fits : Form.newFinding.check raw = .ok body) :
    (enteredFinding body).Enters (· = false) :=
  ⟨listed_enteredFinding fits, false, rfl, (enteredFinding_of_check fits).1⟩

/-- What a person changes of a finding are listed words, and not whether it was detected. -/
lemma takes_updateFinding {raw : Json} (fits : Form.findingChanges.check raw = .ok body) :
    ∀ change ∈ (findingFields body).filter fun change => !change.2.isNull,
      change.1 ≠ .autoDetected ∧ change.1.Takes change.2 := by
  intro change member
  obtain ⟨given, some⟩ := List.mem_filter.mp member
  exact ⟨(findingChanges_of_check fits change given).1, takes_findingChanges fits change given (by simpa using some)⟩

lemma carriesOn_createFinding (fits : ∃ raw, Form.newFinding.check raw = .ok body) (auditId : String) :
    (createFinding auditId body).CarriesOn (· = false) := by
  obtain ⟨raw, fits⟩ := fits
  refine .bind (carriesOn_requireAudit auditId) fun _ => .bind ?_ fun _ => carriesOn_shown _ _ _
  exact @carriesOn_errand _ (.createFinding auditId _) (enters_enteredFinding fits) _

lemma carriesOn_updateFinding (fits : body = .null ∨ ∃ raw, Form.findingChanges.check raw = .ok body) (id : String) :
    (updateFinding id body).CarriesOn (· = false) := by
  refine .bind (@carriesOn_errand _ (.updateFinding id _) ?_ _) ?_
  · obtain rfl | ⟨raw, fits⟩ := fits
    · exact fun change none => nomatch none
    · exact takes_updateFinding fits
  · rintro (_ | finding)
    · exact .throw _
    · exact carriesOn_shown _ _ _

lemma carriesOn_deleteFinding (id : String) : (deleteFinding id).CarriesOn (· = false) := by
  refine .bind (@carriesOn_errand _ (.deleteFinding id) trivial _) fun there => ?_
  split
  · exact .pure _
  · exact .throw _

lemma carriesOn_startScan (auditId : String) : (startScan auditId).CarriesOn (· = false) := by
  refine .bind (carriesOn_requireAudit auditId) fun _ scanner orderly => ?_
  have carries : scanner.CarriesOn (· = false) (scanner.start auditId).2 := Scanner.carriesOn_start orderly auditId
  rw [run_get_bind]
  split
  next result after does =>
  rw [does] at carries
  refine carriesOn_set carries ?_
  cases result with
  | error error => exact .throw _
  | ok acceptance =>
    dsimp only
    split
    · exact .pure _
    · exact .throw _

/-- The body of a request was checked against the form that its method has, or there is none. -/
def Fits (resource : Resource) (method : String) (body : Json) : Prop :=
  match bodyForm? resource method with
  | some form => ∃ raw, form.check raw = .ok body
  | none => body = .null

/-- All that a method of a finding takes are changes. -/
lemma eq_findingChanges {id method : String} {form : Form} (isForm : bodyForm? (.finding id) method = some form) :
    form = .findingChanges := by
  unfold bodyForm? at isForm
  split at isForm <;> cases isForm
  · next same => cases same
  · next same => cases same
  · rfl

lemma carriesOn_respond {resource : Resource} {method : String} (fits : Fits resource method body) :
    (respond resource method body).CarriesOn (· = false) := by
  unfold respond
  split
  · exact carriesOn_createAudit body
  · exact .bind (@carriesOn_errand _ .listAudits trivial _) fun audits => carriesOn_shownAll _ _
  · exact carriesOn_deleteAudit _
  · exact .bind (carriesOn_requireAudit _) fun audit => carriesOn_shown _ _ _
  · exact carriesOn_createFinding fits _
  · refine .bind (carriesOn_requireAudit _) fun _ => ?_
    exact .bind (@carriesOn_errand _ (.listFindings _) trivial _) fun findings => carriesOn_shownAll _ _
  · exact carriesOn_deleteFinding _
  · next id _ =>
    -- A method without a form would change nothing.
    refine carriesOn_updateFinding ?_ id
    unfold Fits at fits
    split at fits
    · next form isForm => exact .inr (eq_findingChanges isForm ▸ fits)
    · exact .inl fits
  · exact carriesOn_startScan _
  · exact .bind (carriesOn_requireAudit _) fun audit => carriesOn_shown _ _ _
  · exact .pure _

/-- A body is checked before the request is answered. -/
lemma carriesOn_answer (resource : Resource) (method : String) (body : RawBody) :
    (answer resource method body).CarriesOn (· = false) := by
  unfold answer
  split
  · next form isForm =>
    cases body with
    | none => exact .throw _
    | some raw =>
      unfold take
      dsimp only
      split
      · next checked => exact carriesOn_respond (by rw [Fits, isForm]; exact ⟨raw, checked⟩)
      · exact .throw _
  · next none => exact carriesOn_respond (by rw [Fits, none])

end Requests

section Running

variable {scanner : Scanner}

/-- The service runs on with a scanner that the old one carries to. -/
def RunsOn (scanner : Scanner) (outcome : Response × Service) : Prop :=
  ∃ response after, outcome = (response, .running after) ∧ scanner.CarriesOn (· = false) after

lemma runsOn_same (orderly : scanner.world.ledger.Orderly) (response : Response) :
    RunsOn scanner (response, .running scanner) :=
  ⟨response, scanner, rfl, .refl orderly⟩

lemma runsOn_serve (orderly : scanner.world.ledger.Orderly) (resource : Resource) (request : Request) :
    RunsOn scanner ((running scanner).serve resource request) := by
  unfold serve
  dsimp only
  generalize (if (bodyForm? resource request.method).isSome then readBody request.body else .ok none) = read
  split
  · exact runsOn_same orderly _
  · exact runsOn_same orderly _
  · next body _ =>
    have carries := carriesOn_answer resource request.method body scanner orderly
    dsimp only [Service.scanner]
    generalize (answer resource request.method body).run.run scanner = result at carries ⊢
    obtain ⟨response | response, after⟩ := result
    · exact ⟨response, after, rfl, carries⟩
    · exact ⟨response, after, rfl, carries⟩

/-- The service that runs answers each request, and its findings are carried on. -/
lemma runsOn_handle (orderly : scanner.world.ledger.Orderly) (request : Request) :
    RunsOn scanner ((running scanner).handle request) := by
  unfold handle
  split
  · split
    · exact runsOn_serve orderly _ request
    · exact runsOn_same orderly _
  · split
    · exact runsOn_same orderly _
    · exact runsOn_same orderly _

end Running

end Service

end RepoAudit
