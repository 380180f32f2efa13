import Tabletop.Session
import Tabletop.Proofs.Audit
import Tabletop.Proofs.Batches
import Tabletop.Proofs.Conservation
import Tabletop.Proofs.Derivation
import Tabletop.Proofs.RoundTrip
import Tabletop.Proofs.SharedTable
import Tabletop.Proofs.Writability
import Tabletop.Proofs.LeadingZeros
import Tabletop.Proofs.Construction
import Tabletop.Proofs.DiceCount
import Tabletop.Proofs.EntryLookup
import Tabletop.Proofs.FileLines
import Tabletop.Proofs.Precedence
import Tabletop.Proofs.MessageLength
import Tabletop.Proofs.MalformedTexts
