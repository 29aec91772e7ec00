import ResearchKernel.Amendment.Versions
import ResearchKernel.ClaimGraph.Roots
import ResearchKernel.Execution.Isolation
import ResearchKernel.Execution.OneShot
import ResearchKernel.Kernel.Revisions

/-!
# Integrity

The tables of a database that a run has reached refer to each other as they should.
-/

namespace ResearchKernel

open Foundation

/-- The rows of the tables are distinct, and what they name exists. -/
structure Db.Integral (db : Db) : Prop where
  ledger : db.ledger.Consistent
  records : db.records.RootInvariant
  claims : db.records.ClaimsScoped
  roots : db.UniqueRoots
  obligations : db.records.ObligationsScoped
  versions : db.records.VersionsKnown
  execution : LeaseInvariant db ∧ PlanInvariant db
  host : HostInvariant db

theorem integral_of_reached (P : Platform) (policy : Policy) (ops : List Op) :
    (reached P policy ops).Integral where
  ledger := consistent_reached P policy ops
  records := rootInvariant_reached P policy ops
  claims := (activeScoped_reached P policy ops).2.1
  roots := uniqueRoots_reached P policy ops
  obligations := obligationsScoped_reached P policy ops
  versions := versionsKnown_reached P policy ops
  execution := @runFrom_invariant _ _ (step P policy) (fun db => LeaseInvariant db ∧ PlanInvariant db)
    _ ⟨leaseInvariant_empty, planInvariant_empty⟩
    (fun _ op h => ⟨leaseInvariant_step op h.1, planInvariant_step h.1 op h.2⟩) ops
  host := hostInvariant_reached P policy ops

end ResearchKernel
