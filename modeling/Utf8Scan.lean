import Utf8Scan.Diagnostic.Template
import Utf8Scan.Session
import Utf8Scan.Proofs.ExcerptSession
import Utf8Scan.Proofs.Lenient
import Utf8Scan.Proofs.Location
import Utf8Scan.Proofs.TextLines
import Utf8Scan.Proofs.TextSearch
import Utf8Scan.Proofs.FirstFind
import Utf8Scan.Proofs.Backtracking
import Utf8Scan.Proofs.LineNumbers
import Utf8Scan.Proofs.Printable
import Utf8Scan.Proofs.DiagnosticLines
import Utf8Scan.Proofs.BackAndForth
import Utf8Scan.Proofs.Ahead
import Utf8Scan.Proofs.Passing
import Utf8Scan.Proofs.Misspelling
import Utf8Scan.Proofs.Expectation
import Utf8Scan.Proofs.Finding
import Utf8Scan.Proofs.LineReading
import Utf8Scan.Proofs.Preceding
import Utf8Scan.Proofs.PlaceOrder
import Utf8Scan.Proofs.Abbreviation
import Utf8Scan.Proofs.DiagnosticObject
import Utf8Scan.Proofs.BoundaryTrail
