import Pagewright.CommandLine.Run
import Pagewright.Config.Load
import Pagewright.Document.Outline
import Pagewright.Main
import Pagewright.Refresh
import Pagewright.Script.Process
import Pagewright.Proofs.Lines
import Pagewright.Proofs.Reread
import Pagewright.Proofs.SecondPass
import Pagewright.Proofs.SectionMarks
import Pagewright.Proofs.AuthorTexts
import Pagewright.Proofs.CanonicalDocuments
import Pagewright.Proofs.Cells
import Pagewright.Proofs.NormalSpacing
import Pagewright.Proofs.Recognition
import Pagewright.Proofs.Tiling
import Pagewright.Proofs.Convergence
import Pagewright.Proofs.Places
import Pagewright.Proofs.Remains
import Pagewright.Proofs.Routes
import Pagewright.Proofs.PublishedOutputs
import Pagewright.Proofs.Endings
import Pagewright.Proofs.Destinations
import Pagewright.Proofs.CleanRerun
import Pagewright.Proofs.Retries
import Pagewright.Proofs.LastShape
import Pagewright.Proofs.ByteOrder
import Pagewright.Proofs.MemberOrder
import Pagewright.Proofs.ScriptRuns
import Pagewright.Proofs.FormTexts
import Pagewright.Proofs.WritableSlots
import Pagewright.Proofs.EarliestFault
import Pagewright.Proofs.JoinedDocuments
import Pagewright.Proofs.FreshStarts
import Pagewright.Proofs.VisibleContent
import Pagewright.Proofs.ShapeDefaults
import Pagewright.Proofs.ClosingEffects
import Pagewright.Proofs.PreparedTargets
import Pagewright.Proofs.ProjectFiles
import Pagewright.Proofs.ChangeReports
import Pagewright.Proofs.SentSlots
import Pagewright.Proofs.OutlineLines
import Pagewright.Proofs.MarkedLists
