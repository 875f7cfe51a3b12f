import RulePlan.Console
import RulePlan.Main
import RulePlan.Plan.Match
import RulePlan.Proofs.Compile.Accounting
import RulePlan.Proofs.Compile.Meaning
import RulePlan.Proofs.Compile.Memo
import RulePlan.Proofs.Compile.Pruning
import RulePlan.Proofs.Compile.StoredSets
import RulePlan.Proofs.Compile.WellFormed
import RulePlan.Proofs.Session.History
import RulePlan.Proofs.Tokens
import RulePlan.Proofs.Tree.Depth
import RulePlan.Proofs.Tree.Described
import RulePlan.Proofs.Tree.Flat
import RulePlan.Proofs.Widget.Encoding
import RulePlan.Proofs.Plan.Wire
import RulePlan.Proofs.Widget.BaseFilter
import RulePlan.Proofs.Condition.Opposite
import RulePlan.Proofs.Widget.Paging
import RulePlan.Proofs.Compile.Opposite
import RulePlan.Proofs.Compile.Needed
import RulePlan.Proofs.Compile.Reordered
import RulePlan.Proofs.Number.Binary64
import RulePlan.Proofs.Text.Lower
import RulePlan.Proofs.Number.Written
import RulePlan.Proofs.Sql.Membership
import RulePlan.Proofs.Sql.Formula
import RulePlan.Proofs.Sql.Reading
import RulePlan.Proofs.Sql.Expression
import RulePlan.Proofs.Sql.Shape
import RulePlan.Proofs.Compile.Containing
import RulePlan.Proofs.Tree.ExtraMembers
import RulePlan.Proofs.Settings
import RulePlan.Proofs.Condition.Refusal
import RulePlan.Proofs.Compile.Flattened
import RulePlan.Proofs.Tree.Numbered
import RulePlan.Proofs.Plan.Order
import RulePlan.Proofs.Plan.Integers
import RulePlan.Proofs.Condition.Codes
import RulePlan.Proofs.Tree.Variants
import RulePlan.Proofs.Plan.Wildcards
import RulePlan.Proofs.Compile.WholeText
import RulePlan.Proofs.Condition.Description
