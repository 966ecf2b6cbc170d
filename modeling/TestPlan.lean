import TestPlan.Main
import TestPlan.Proofs.CaseAccess
import TestPlan.Proofs.Completion
import TestPlan.Proofs.Condition.Unresolved
import TestPlan.Proofs.EnvProfile.Writing
import TestPlan.Proofs.Expansion.Beginnings
import TestPlan.Proofs.Expansion.Cycles
import TestPlan.Proofs.Expansion.Guard
import TestPlan.Proofs.Expansion.Hiding
import TestPlan.Proofs.Expansion.Modularity
import TestPlan.Proofs.Expansion.Settled
import TestPlan.Proofs.IncludeChain.History
import TestPlan.Proofs.Libraries
import TestPlan.Proofs.Reports
import TestPlan.Proofs.Snapshot
import TestPlan.Proofs.StepText.Loops
import TestPlan.Proofs.StepText.ReadBack
import TestPlan.Proofs.Substitution.Reading
import TestPlan.Proofs.Substitution.Refilling
import TestPlan.Proofs.TagFormula
import TestPlan.Proofs.TagGrammar
