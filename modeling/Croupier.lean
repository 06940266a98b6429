import Croupier.Session
import Croupier.Archive.Rotation
import Croupier.Main
import Croupier.Proofs.Ledger
import Croupier.Proofs.BlockSize
import Croupier.Proofs.Fairness
import Croupier.Proofs.Bundles
import Croupier.Proofs.Posts
import Croupier.Proofs.Forgery
import Croupier.Proofs.Plays
import Croupier.Proofs.Endings
import Croupier.Proofs.Authority
import Croupier.Proofs.Settlement
import Croupier.Proofs.Archive.Continuity
import Croupier.Proofs.Settings.Revocation
import Croupier.Proofs.Settings.Opening
import Croupier.Proofs.Caps
import Croupier.Proofs.Entropy.Consumption
import Croupier.Proofs.Percentile.Lines
import Croupier.Proofs.Percentile.Grades
import Croupier.Proofs.Percentile.Odds
import Croupier.Proofs.RaisedCaps
import Croupier.Proofs.Message.Fewest
import Croupier.Proofs.Archive.Retention
import Croupier.Proofs.Ranges
import Croupier.Proofs.Settings.Atomic
import Croupier.Proofs.Archive.Rotation
import Croupier.Proofs.Owner
import Croupier.Proofs.Percentile.Checks
import Croupier.Proofs.Fences
import Croupier.Proofs.Entropy.Termination
import Croupier.Proofs.Lengths
