import Croupier.Bundled
import Croupier.Main
import Croupier.Proofs.Event.Delivery
import Croupier.Proofs.Expr.Faithful
import Croupier.Proofs.Game.Arrangement
import Croupier.Proofs.Game.Events
import Croupier.Proofs.Game.History
import Croupier.Proofs.Game.Mover
import Croupier.Proofs.Game.Uncommitted
import Croupier.Proofs.Program.Frame
import Croupier.Proofs.Program.Order
import Croupier.Proofs.Program.Placement
import Croupier.Proofs.Program.Resolution
import Croupier.Proofs.Program.Spacing
import Croupier.Proofs.Program.Walk
import Croupier.Proofs.Run.Ending
import Croupier.Proofs.Run.OneByOne
import Croupier.Proofs.Run.Sameness
import Croupier.Proofs.Scenario.Suite
import Croupier.Proofs.Scenario.Verdict
import Croupier.Proofs.Scopa.Play
import Croupier.Proofs.Table.Canonical
import Croupier.Proofs.Token.Refusal
import Croupier.Proofs.Turn.Requests
