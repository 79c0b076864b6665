import Mathlib.Tactic.Common
import RepoAudit.Scan.Run
import RepoAudit.Scan.Start

/-!
# Contracts of programs

A program makes its calls while others make theirs, so what holds between two of its calls is what the others
leave. A contract says which calls a program may make in a state of its own, and what replies it may count
on; each exchange leads to the next state. A program keeps the contract when every call is allowed and the
rest keeps it whatever is replied. The rules below follow the way programs are put together: sequences, parts
that may fail, parts with a log, and loops.
-/

namespace RepoAudit

/-- A call and its reply. -/
structure Exchange where
  call : Call
  reply : call.Reply

/-- What a program may call in a state, what it may be replied, and the state that follows. -/
structure Contract (σ : Type) where
  allows : σ → Call → Prop
  replies : σ → Exchange → Prop := fun _ _ => True
  next : σ → Exchange → σ

namespace Program

variable {σ α β : Type} {contract : Contract σ}

/-- A program that makes only calls its contract allows, and ends as the last argument asks. -/
def Keeps (contract : Contract σ) (post : α → σ → Prop) : Program α → σ → Prop
  | .done value, s => post value s
  | .call c next, s =>
    contract.allows s c ∧
      ∀ reply, contract.replies s ⟨c, reply⟩ →
        (next reply).Keeps contract post (contract.next s ⟨c, reply⟩)

lemma Keeps.mono {post weaker : α → σ → Prop} (imp : ∀ value s, post value s → weaker value s)
    {program : Program α} {s : σ} (keeps : program.Keeps contract post s) :
    program.Keeps contract weaker s := by
  induction program generalizing s with
  | done value => exact imp value s keeps
  | call c next ih =>
    obtain ⟨allowed, rest⟩ := keeps
    exact ⟨allowed, fun reply replied => ih reply (rest reply replied)⟩

/-- A program keeps another contract that goes along with the first one from state to state. -/
lemma Keeps.along {τ : Type} {other : Contract τ} {related : σ → τ → Prop} {post : α → σ → Prop}
    (allows : ∀ s t c, related s t → contract.allows s c → other.allows t c)
    (replies : ∀ s t e, related s t → other.replies t e → contract.replies s e)
    (next : ∀ s t e, related s t → contract.allows s e.call → other.replies t e →
      related (contract.next s e) (other.next t e))
    {program : Program α} {s : σ} {t : τ} (keeps : program.Keeps contract post s) (start : related s t) :
    program.Keeps other (fun value t => ∃ s, related s t ∧ post value s) t := by
  induction program generalizing s t with
  | done value => exact ⟨s, start, keeps⟩
  | call c rest ih =>
    obtain ⟨allowed, goes⟩ := keeps
    exact ⟨allows s t c start allowed, fun reply replied =>
      ih reply (goes reply (replies s t _ start replied)) (next s t _ start allowed replied)⟩

/-- A program keeps another contract that allows at least as much and promises at least as much. -/
lemma Keeps.weaken {τ : Type} {other : Contract τ} {post : α → σ → Prop}
    (allows : ∀ s t c, contract.allows s c → other.allows t c)
    (replies : ∀ s t e, other.replies t e → contract.replies s e) {program : Program α} {s : σ} {t : τ}
    (keeps : program.Keeps contract post s) : program.Keeps other (fun value _ => ∃ s, post value s) t := by
  have along : program.Keeps other (fun value _ => ∃ s, True ∧ post value s) t :=
    keeps.along (fun s t c _ => allows s t c) (fun s t e _ => replies s t e) (fun _ _ _ _ _ _ => trivial) trivial
  simpa only [true_and] using along

/-- A sequence keeps a contract when its second program goes on from where the first one ends. -/
lemma keeps_bind {program : Program α} {next : α → Program β} {post : β → σ → Prop} {s : σ} :
    (program.bind next).Keeps contract post s ↔
      program.Keeps contract (fun value after => (next value).Keeps contract post after) s := by
  induction program generalizing s with
  | done value => exact Iff.rfl
  | call c rest ih =>
    exact and_congr_right fun _ => forall_congr' fun reply => imp_congr_right fun _ => ih reply

lemma bind_done (program : Program α) : program.bind .done = program := by
  induction program with
  | done value => rfl
  | call c next ih => exact congrArg (Program.call c) (funext ih)

lemma bind_assoc {γ : Type} (program : Program α) (f : α → Program β) (g : β → Program γ) :
    (program.bind f).bind g = program.bind fun value => (f value).bind g := by
  induction program with
  | done value => rfl
  | call c next ih => exact congrArg (Program.call c) (funext ih)

instance : LawfulMonad Program :=
  LawfulMonad.mk' Program bind_done (fun _ _ => rfl) bind_assoc

end Program

namespace Scan

variable {σ ε α β : Type}

/-- A part of a scan that may fail with an error, and that adds to the log. -/
abbrev Staged (ε α : Type) := ExceptT ε (StateT ScanLog Program) α

/-- A part of a scan that keeps a contract from a log on. -/
def Keeps (contract : Contract σ) (post : Except ε α → ScanLog → σ → Prop) (part : Staged ε α)
    (log : ScanLog) (s : σ) : Prop :=
  (part.run.run log).Keeps contract (fun out => post out.1 out.2) s

section Rules

variable {contract : Contract σ} {log : ScanLog} {s : σ}

lemma Keeps.mono {post weaker : Except ε α → ScanLog → σ → Prop}
    (imp : ∀ result log s, post result log s → weaker result log s) {part : Staged ε α}
    (keeps : Keeps contract post part log s) : Keeps contract weaker part log s := by
  refine Program.Keeps.mono ?_ keeps
  exact fun out => imp out.1 out.2

lemma keeps_pure {post : Except ε α → ScanLog → σ → Prop} {value : α} (holds : post (.ok value) log s) :
    Keeps contract post (pure value) log s := holds

lemma keeps_throw {post : Except ε α → ScanLog → σ → Prop} {error : ε}
    (holds : post (.error error) log s) : Keeps contract post (throw error : Staged ε α) log s :=
  holds

/-- One part after another; the second one is left out when the first one fails. -/
lemma keeps_bind {post : Except ε β → ScanLog → σ → Prop} {part : Staged ε α}
    {next : α → Staged ε β}
    (keeps : Keeps contract (fun result log s => match result with
      | .ok value => Keeps contract post (next value) log s
      | .error error => post (.error error) log s) part log s) :
    Keeps contract post (part >>= next) log s := by
  refine Program.keeps_bind.mpr (Program.Keeps.mono ?_ keeps)
  rintro ⟨_ | value, log⟩ s holds
  · exact holds
  · exact holds

lemma keeps_call {c : Call} {post : Except ε c.Reply → ScanLog → σ → Prop}
    (allowed : contract.allows s c)
    (next : ∀ reply, contract.replies s ⟨c, reply⟩ →
      post (.ok reply) log (contract.next s ⟨c, reply⟩)) :
    Keeps contract post (liftM (Program.ask c) : Staged ε c.Reply) log s :=
  ⟨allowed, next⟩

lemma keeps_ask {c : Call} {post : Except Interruption c.Reply → ScanLog → σ → Prop}
    (allowed : contract.allows s c)
    (next : ∀ reply, contract.replies s ⟨c, reply⟩ →
      post (.ok reply) log (contract.next s ⟨c, reply⟩)) :
    Keeps contract post (ask c) log s :=
  keeps_call allowed next

/-- A part that fails with errors of the store only. -/
lemma keeps_keeping {post : Except Interruption α → ScanLog → σ → Prop} {part : Logging α}
    (keeps : Keeps contract (fun result log s => post (result.mapError .store) log s) part log s) :
    Keeps contract post (keeping part) log s := by
  refine Program.keeps_bind.mpr (Program.Keeps.mono ?_ keeps)
  rintro ⟨_ | value, log⟩ s holds
  · exact holds
  · exact holds

/-- One of two parts, and then a third one. -/
lemma keeps_either {post : Except ε β → ScanLog → σ → Prop} {c : Prop} [Decidable c]
    {first second : Staged ε α} {next : α → Staged ε β}
    (keeps : Keeps contract post ((if c then first else second) >>= next) log s) :
    Keeps contract post (if c then first >>= next else second >>= next) log s := by
  by_cases holds : c
  · rwa [if_pos holds] at keeps ⊢
  · rwa [if_neg holds] at keeps ⊢

/-- A loop keeps a contract when each round leads from the invariant of what is left to that of the
rest. -/
lemma keeps_forIn {ι : Type} (invariant : List ι → ScanLog → σ → Prop)
    {post : Except ε PUnit → ScanLog → σ → Prop} {body : ι → Staged ε (ForInStep PUnit)} :
    ∀ {items : List ι} {log : ScanLog} {s : σ}, invariant items log s →
    (∀ item rest log s, invariant (item :: rest) log s →
      Keeps contract (fun result log s => match result with
        | .ok step => step = .yield ⟨⟩ ∧ invariant rest log s
        | .error error => post (.error error) log s) (body item) log s) →
    (∀ log s, invariant [] log s → post (.ok ⟨⟩) log s) →
    Keeps contract post (forIn items PUnit.unit fun item _ => body item) log s := by
  intro items
  induction items with
  | nil => exact fun start _ ends => keeps_pure (ends _ _ start)
  | cons item rest ih =>
    intro log s start round ends
    rw [List.forIn_cons]
    refine keeps_bind (Keeps.mono ?_ (round item rest log s start))
    rintro (error | step) log s holds
    · exact holds
    · obtain ⟨rfl, holds⟩ := holds
      exact ih holds round ends

/-- A list of parts, one for each item, keeps a contract when each leads from the invariant of what is
done and what is left to that of its value. -/
lemma keeps_mapM {ι : Type} (invariant : List α → List ι → ScanLog → σ → Prop)
    {post : Except ε (List α) → ScanLog → σ → Prop} {body : ι → Staged ε α} :
    ∀ (done : List α) {items : List ι} {log : ScanLog} {s : σ}, invariant done items log s →
    (∀ done item rest log s, invariant done (item :: rest) log s →
      Keeps contract (fun result log s => match result with
        | .ok value => invariant (done ++ [value]) rest log s
        | .error error => post (.error error) log s) (body item) log s) →
    (∀ all log s, invariant (done ++ all) [] log s → post (.ok all) log s) →
    Keeps contract post (items.mapM body) log s := by
  intro done items
  induction items generalizing post done with
  | nil =>
    intro log s start _ ends
    rw [List.mapM_nil]
    exact keeps_pure (ends [] log s (by simpa using start))
  | cons item rest ih =>
    intro log s start round ends
    rw [List.mapM_cons]
    refine keeps_bind (Keeps.mono ?_ (round done item rest log s start))
    rintro (error | value) log s holds
    · exact holds
    · refine keeps_bind (ih (done ++ [value]) holds ?_ ?_)
      · intro done item rest log s holds
        exact Keeps.mono (fun result _ _ h => by cases result <;> exact h)
          (round done item rest log s holds)
      · intro all log s holds
        exact keeps_pure (ends (value :: all) log s (by simpa using holds))

end Rules

/-! ## Congruences on parts of scans

A relation between parts of scans that holds of what returns and of what fails, and that goes through sequences, goes
through loops and choices as well (`Scan.Congruent`). So it holds of the long parts of a scan as soon as it holds of a
step of the log and of a question about a file.
-/

/-- A relation between parts of scans that goes through sequences. -/
structure Congruent (R : ∀ ⦃ε α : Type⦄, Staged ε α → Staged ε α → Prop) : Prop where
  pure : ∀ {ε α : Type} (value : α), R (pure value : Staged ε α) (pure value)
  throw : ∀ {ε α : Type} (error : ε), R (throw error : Staged ε α) (throw error)
  bind : ∀ {ε α β : Type} {p q : Staged ε α} {f g : α → Staged ε β}, R p q → (∀ value, R (f value) (g value)) →
    R (p >>= f) (q >>= g)

namespace Congruent

variable {R : ∀ ⦃ε α : Type⦄, Staged ε α → Staged ε α → Prop} {ε α β : Type}

lemma forIn (congruent : Congruent R) {ι : Type} {body body' : ι → Staged ε (ForInStep PUnit)}
    (round : ∀ item, R (body item) (body' item)) (items : List ι) :
    R (forIn items PUnit.unit fun item _ => body item) (forIn items PUnit.unit fun item _ => body' item) := by
  induction items with
  | nil => exact congruent.pure _
  | cons item rest ih =>
    rw [List.forIn_cons, List.forIn_cons]
    refine congruent.bind (round item) ?_
    rintro (_ | _)
    · exact congruent.pure _
    · exact ih

lemma mapM (congruent : Congruent R) {ι : Type} {body body' : ι → Staged ε α}
    (round : ∀ item, R (body item) (body' item)) (items : List ι) : R (items.mapM body) (items.mapM body') := by
  induction items with
  | nil => exact congruent.pure _
  | cons item rest ih =>
    rw [List.mapM_cons, List.mapM_cons]
    exact congruent.bind (round item) fun _ => congruent.bind ih fun _ => congruent.pure _

/-- One of two parts, and then a third one. -/
lemma either (congruent : Congruent R) {c : Prop} [Decidable c] {p q p' q' : Staged ε α} {f g : α → Staged ε β}
    (one : R p q) (other : R p' q') (next : ∀ value, R (f value) (g value)) :
    R (if c then p >>= f else p' >>= f) (if c then q >>= g else q' >>= g) := by
  split
  · exact congruent.bind one next
  · exact congruent.bind other next

lemma demand (congruent : Congruent R) (result : Except String α) : R (demand result) (demand result) := by
  cases result with
  | ok value => exact congruent.pure value
  | error reason => exact congruent.throw _

variable {engine : Engine} {owner name : String}

lemma scanFiles (congruent : Congruent R)
    (asks : ∀ path, R (ask (.file owner name path)) (ask (.file owner name path))) (targets : List TreeEntry) :
    R (scanFiles engine owner name targets) (scanFiles engine owner name targets) := by
  have visits := congruent.mapM (fun entry : TreeEntry => congruent.bind (asks entry.path) fun content =>
    congruent.demand (fileStage engine entry.path content)) targets
  simp only [Scan.scanFiles]
  split
  · exact congruent.bind (congruent.throw _) fun _ => visits
  · exact visits

/-- All that is done about a tree are steps of the log and questions about files. -/
lemma inspectTree (congruent : Congruent R) (left right : String)
    (notes : ∀ step status message,
      R (keeping (note left step status message)) (keeping (note right step status message)))
    (asks : ∀ path, R (ask (.file owner name path)) (ask (.file owner name path))) (tree : List TreeEntry) :
    R (inspectTree engine left owner name tree) (inspectTree engine right owner name tree) := by
  simp only [Scan.inspectTree]
  refine congruent.bind (congruent.forIn (fun _ => ?_) _) fun _ => ?_
  · exact congruent.bind (notes _ _ _) fun _ => congruent.pure _
  refine congruent.either (notes _ _ _) (notes _ _ _) fun _ => congruent.bind (notes _ _ _) fun _ => ?_
  refine congruent.bind (congruent.scanFiles asks _) fun stages => ?_
  refine congruent.bind (congruent.forIn (fun stage => ?_) stages) fun _ => congruent.bind (notes _ _ _) fun _ => ?_
  · split
    · exact congruent.bind (notes _ _ _) fun _ => congruent.pure _
    · exact congruent.pure _
  · split
    · exact congruent.bind (asks _) fun _ => congruent.bind (congruent.demand _) fun _ =>
        congruent.bind (notes _ _ _) fun _ => congruent.pure _
    · exact congruent.pure _

end Congruent

end Scan

end RepoAudit
