import ResearchKernel.Finalization.Root

/-!
# Finalization of a disproof

A disproof is accepted on evidence of a counterexample whose provenance says that it was
checked. The provenance comes from the submitter. A host receipt stands behind the disproof
only where a check of the root has been consumed at some time.
-/

namespace ResearchKernel

open Foundation

/-! ## Evidence is about the statements of claims -/

section History

variable {P : Platform} {policy : Policy} {db : Db}

/-- Mutations leave the receipts alone. -/
theorem hostReceipts_of_apply {ctx : ProjectionContext} {m : Mutation} {before after : Db}
    (h : Projection.applyMutation ctx before m = some after) :
    after.records.hostReceipts = before.records.hostReceipts := by
  have hframe := congrArg Records.hostReceipts (Projection.records_of_apply h)
  cases m <;> exact hframe

variable {receipt' : HostReceipt}

end History

end ResearchKernel
