import MetricGateway.Round.Report
import MetricGateway.Proofs.Round.Turns
import MetricGateway.Proofs.Metrics.Failures

/- A round answers for every instance once: it is up if its document came in time, else down and
   counted as one failure, however its fetch ended or was cut off. -/
namespace MetricGateway

/-- Whether a fetch that begins at `start` gives a document within the fetch limit, and before the
    round's deadline. -/
def FetchPlan.succeeds (plan : FetchPlan) (limit start deadline : Nat) : Bool :=
  match plan.outcome, plan.delay with
  | .page _, some delay => delay ≤ limit && start + delay < deadline
  | _, _ => false

namespace Round

open GatewayMetrics

theorem answered_append_unanswered (deadline : Nat) (slots : List Slot) :
    (answered deadline slots ++ unanswered deadline slots).Perm slots := by
  have sorted : (answered deadline slots).Perm
      (slots.filter fun s => s.ends < deadline && isAnswer s.result) := by
    rw [answered, arrived]
    refine ((List.mergeSort_perm _ _).filter _).trans (List.Perm.of_eq ?_)
    rw [List.filter_filter]
    exact List.filter_congr fun s _ => Bool.and_comm ..
  exact (sorted.append_right _).trans (List.filter_append_perm _ slots)

def numbered (number : String) : Instance :=
  ⟨"org", "space", "app", "id", "/metrics", "http", "id:" ++ number, "http://app", none⟩

end Round
end MetricGateway
