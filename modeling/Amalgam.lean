import Amalgam.Main
import Amalgam.Classifier
import Amalgam.Include.NamedSets
import Amalgam.Proofs.Document.Placement
import Amalgam.Proofs.Classification.Texts
import Amalgam.Proofs.Classification.Calls
import Amalgam.Proofs.Classification.Acceptance
import Amalgam.Proofs.Document.Independence
import Amalgam.Proofs.Include.Recognition
import Amalgam.Proofs.Document.IncludeBlocks
import Amalgam.Proofs.Run.Effect
import Amalgam.Proofs.Path.Location
import Amalgam.Proofs.Text.ByteOrder
import Amalgam.Proofs.Disk.Location
import Amalgam.Proofs.Config.Resolved
import Amalgam.Proofs.Discovery.Found
import Amalgam.Proofs.Discovery.Rejection
import Amalgam.Proofs.Discovery.Feedback
import Amalgam.Proofs.Discovery.Covered
import Amalgam.Proofs.Run.Built
import Amalgam.Proofs.Discovery.Relisting
import Amalgam.Proofs.Run.Again
import Amalgam.Proofs.Command.Configuration
import Amalgam.Proofs.Run.ReadBack
import Amalgam.Proofs.Command.Verbosity
import Amalgam.Proofs.Include.Arrangement
import Amalgam.Proofs.Include.Form
import Amalgam.Proofs.Mark.Reading
import Amalgam.Proofs.Text.Lines
import Amalgam.Proofs.SourceFile.Parts
import Amalgam.Proofs.Include.Rendered
import Amalgam.Proofs.Discovery.Listing
import Amalgam.Proofs.Config.Stability
import Amalgam.Proofs.Config.Repeated
import Amalgam.Proofs.Include.Note
import Amalgam.Proofs.Include.History
import Amalgam.Proofs.Run.Endings
import Amalgam.Proofs.SourceFile.Damage
import Amalgam.Proofs.SourceFile.Wrapper
import Amalgam.Proofs.Document.OwnInclude
import Amalgam.Proofs.Path.NormalForm
