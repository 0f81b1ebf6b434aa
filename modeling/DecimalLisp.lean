import DecimalLisp.Main
import DecimalLisp.Proofs.Calculation.Exact
import DecimalLisp.Proofs.Calculation.Monotone
import DecimalLisp.Proofs.Calculation.Regrouping
import DecimalLisp.Proofs.CommandLine
import DecimalLisp.Proofs.Comparison
import DecimalLisp.Proofs.Evaluation.Assignment
import DecimalLisp.Proofs.ExactText
import DecimalLisp.Proofs.Frames.History
import DecimalLisp.Proofs.Printing
import DecimalLisp.Proofs.Session.Depth
import DecimalLisp.Proofs.Session.Loops
import DecimalLisp.Proofs.Session.NumberForm
import DecimalLisp.Proofs.Session.Precision
import DecimalLisp.Proofs.Session.Repetition
import DecimalLisp.Proofs.Session.Sequence
import DecimalLisp.Proofs.Session.Unmentioned
import DecimalLisp.Proofs.Evaluation.Moments
import DecimalLisp.Proofs.Evaluation.Upkeep
import DecimalLisp.Proofs.Session.Upkeep
import DecimalLisp.Proofs.Session.WellFormed
import DecimalLisp.Proofs.Repl
import DecimalLisp.Proofs.Session.Provenance
import DecimalLisp.Proofs.Token.Decomposition
import DecimalLisp.Proofs.Uncarried
