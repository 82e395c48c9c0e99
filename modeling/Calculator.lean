import Calculator.Main
import Calculator.Files.Regex
import Calculator.Files.RegexReader
import Calculator.Files.Braces
import Calculator.Proofs.Expression.Printing
import Calculator.Proofs.Expression.ErrorPlace
import Calculator.Proofs.Evaluation.AllowList
import Calculator.Proofs.Evaluation.FirstFault
import Calculator.Proofs.Session.Finiteness
import Calculator.Proofs.Session.Location
import Calculator.Proofs.Session.Composition
import Calculator.Proofs.Session.Scheduling
import Calculator.Proofs.Session.PromptRuns
import Calculator.Proofs.Session.TokenReading
import Calculator.Proofs.Evaluation.Recall
import Calculator.Proofs.Evaluation.Angles
import Calculator.Proofs.Settings.Records
import Calculator.Proofs.Settings.Resolution
import Calculator.Proofs.Expression.Coverage
import Calculator.Proofs.Session.Preparation
import Calculator.Proofs.Session.Retyping
import Calculator.Proofs.Number.Redisplay
import Calculator.Proofs.Number.DisplayRange
import Calculator.Proofs.Evaluation.FloorDivision
import Calculator.Proofs.Evaluation.HalfEven
import Calculator.Proofs.Evaluation.DecimalPlaces
import Calculator.Proofs.Evaluation.Factorial
import Calculator.Proofs.Evaluation.Summation
import Calculator.Proofs.Settings.Fields
import Calculator.Proofs.Session.StoredExpressions
import Calculator.Proofs.Report.Colors
import Calculator.Proofs.Report.ResultLines
import Calculator.Proofs.Report.Markers
import Calculator.Proofs.CommandLine.Outcomes
import Calculator.Proofs.Session.BatchLines
import Calculator.Proofs.Expression.Literals
