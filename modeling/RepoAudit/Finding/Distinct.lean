import RepoAudit.Finding.Basic

/-!
# Distinct findings

Repeated detections of one issue in one file collapse to the first of them.
-/

namespace RepoAudit.Finding

/-- The findings whose signature is neither among the given ones nor that of an earlier finding. -/
def distinctFrom (seen : List Signature) : List Finding → List Finding
  | [] => []
  | finding :: rest =>
    if finding.signature ∈ seen then distinctFrom seen rest
    else finding :: distinctFrom (finding.signature :: seen) rest

theorem distinctFrom_sublist (seen : List Signature) (found : List Finding) :
    (distinctFrom seen found).Sublist found := by
  induction found generalizing seen with
  | nil => exact .slnil
  | cons finding rest ih =>
    unfold distinctFrom
    split
    · exact (ih seen).cons finding
    · exact (ih _).cons_cons finding

/-- The first finding of each signature, in order. -/
def distinct (findings : List Finding) : List Finding := distinctFrom [] findings

end RepoAudit.Finding
