import Cfpl.Main
import Cfpl.Proofs.Command.Ways
import Cfpl.Proofs.Reading.LineByLine
import Cfpl.Proofs.Reading.Total
import Cfpl.Proofs.Run.Arithmetic
import Cfpl.Proofs.Run.Detail
import Cfpl.Proofs.Run.Fault
import Cfpl.Proofs.Run.Footprint
import Cfpl.Proofs.Run.InputLine
import Cfpl.Proofs.Run.Kinds
import Cfpl.Proofs.Run.Quotation
import Cfpl.Proofs.Scope.Chain
import Cfpl.Proofs.Source.Number
import Cfpl.Proofs.Source.Star
import Cfpl.Proofs.Value.Shown
