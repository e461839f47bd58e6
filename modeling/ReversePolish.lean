import ReversePolish.Main
import ReversePolish.Proofs.Calculator.Recency
import ReversePolish.Proofs.CommandLine.Contract
import ReversePolish.Proofs.Conversion.Calls
import ReversePolish.Proofs.Conversion.Order
import ReversePolish.Proofs.Conversion.Punctuation
import ReversePolish.Proofs.Evaluation.Faults
import ReversePolish.Proofs.Evaluation.Regrowth
import ReversePolish.Proofs.Expression.Acceptance
import ReversePolish.Proofs.Expression.Counts
import ReversePolish.Proofs.Expression.Printed
import ReversePolish.Proofs.Expression.Shadowing
import ReversePolish.Proofs.Expression.Substitution
import ReversePolish.Proofs.Scanning.Concatenation
import ReversePolish.Proofs.Scanning.Division
import ReversePolish.Proofs.Scanning.Faults
import ReversePolish.Proofs.Session.Entry
import ReversePolish.Proofs.Session.Hindrances
import ReversePolish.Proofs.Session.Reports
import ReversePolish.Proofs.Session.Turns
import ReversePolish.Samples
import ReversePolish.Trace
