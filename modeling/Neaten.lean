import Neaten.Archive.Writer
import Neaten.Main
import Neaten.Readme.Assembly
import Neaten.Server.Respond
import Neaten.Tree.Address
import Neaten.Proofs.Archive.Confinement
import Neaten.Proofs.Archive.RoundTrip
import Neaten.Proofs.Command.Downloads
import Neaten.Proofs.Command.FormatFailure
import Neaten.Proofs.Command.Placement
import Neaten.Proofs.Command.PortSearch
import Neaten.Proofs.Command.ReadmePath
import Neaten.Proofs.Config.Layers
import Neaten.Proofs.Config.ProjectSearch
import Neaten.Proofs.FileSystem.SaveEffect
import Neaten.Proofs.Layout.CodeLines
import Neaten.Proofs.Layout.Indentation
import Neaten.Proofs.Layout.Locality
import Neaten.Proofs.Layout.Threshold
import Neaten.Proofs.Readme.Counting
import Neaten.Proofs.Readme.Excerpts
import Neaten.Proofs.Readme.FrameworkSearch
import Neaten.Proofs.Readme.Rendering
import Neaten.Proofs.Server.DownloadNames
import Neaten.Proofs.Server.FailedUploads
import Neaten.Proofs.Server.LatestOutcome
import Neaten.Proofs.Server.NewestUpload
import Neaten.Proofs.Server.Requests
import Neaten.Proofs.Tree.Geometry
import Neaten.Proofs.Tree.LastWriter
import Neaten.Proofs.Tree.Legibility
import Neaten.Proofs.Tree.SiblingOrder
import Neaten.Proofs.Tree.Wellformedness
import Neaten.Proofs.Upload.ArchiveNames
import Neaten.Proofs.Upload.LevelLimit
import Neaten.Proofs.Upload.Outcomes
import Neaten.Proofs.Upload.Processing
