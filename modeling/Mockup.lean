import Mockup.Main
import Mockup.Web.Framework
import Mockup.Proofs.Page.ReadBack
import Mockup.Proofs.Page.ContainingBlock
import Mockup.Proofs.Page.Progress
import Mockup.Proofs.Remote.Retry
import Mockup.Proofs.Remote.Failure
import Mockup.Proofs.Number.Numeral
import Mockup.Proofs.Style.Alphabet
import Mockup.Proofs.Style.Family
import Mockup.Proofs.Page.Sheet
import Mockup.Proofs.Page.Hidden
import Mockup.Proofs.Page.Wrapping
import Mockup.Proofs.Page.Reached
import Mockup.Proofs.Page.Independence
import Mockup.Proofs.Style.Confinement
import Mockup.Proofs.Text.Percent
import Mockup.Proofs.Link.Parts
import Mockup.Proofs.Link.Title
import Mockup.Proofs.Link.Handling
import Mockup.Proofs.Page.Refusals
import Mockup.Proofs.Command.Steps
import Mockup.Proofs.Command.Storage
import Mockup.Proofs.Command.Agreement
import Mockup.Proofs.Web.Submission
import Mockup.Proofs.Page.Pruning
import Mockup.Proofs.Page.Classes
import Mockup.Proofs.Page.Offsets
import Mockup.Proofs.Command.Files
import Mockup.Proofs.Style.Order
import Mockup.Proofs.Page.Promotion
import Mockup.Proofs.Design.Filled
import Mockup.Proofs.Link.Keys
import Mockup.Proofs.Command.FileName
import Mockup.Proofs.Page.Reference
import Mockup.Proofs.Remote.Isolation
import Mockup.Proofs.Link.Spellings
import Mockup.Proofs.Style.Stacks
import Mockup.Proofs.Page.Alignment
import Mockup.Proofs.Style.Received
import Mockup.Proofs.Style.Levels
import Mockup.Proofs.Style.Figures
