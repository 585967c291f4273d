import Excision.Main
import Excision.Store.Memory
import Excision.Proofs.Lines
import Excision.Proofs.Balance
import Excision.Proofs.Opener
import Excision.Proofs.Removal
import Excision.Proofs.Passes
import Excision.Proofs.Blanks
import Excision.Proofs.Declarations
import Excision.Proofs.Outline
import Excision.Proofs.Exactness
import Excision.Proofs.Walks
import Excision.Proofs.Saving
import Excision.Proofs.Sessions
import Excision.Proofs.PruneFrame
import Excision.Proofs.Accounts
import Excision.Proofs.Phases
import Excision.Proofs.Commentary
import Excision.Proofs.Trimming
import Excision.Proofs.Nesting
import Excision.Proofs.PruneRuns
import Excision.Proofs.ExitStatus
import Excision.Proofs.Sequence
import Excision.Proofs.Lookup
import Excision.Proofs.Layers
import Excision.Proofs.Histories
import Excision.Proofs.Matching
import Excision.Proofs.Reading
import Excision.Proofs.Grammar
import Excision.Proofs.Tables
import Excision.Proofs.Decoding
import Excision.Proofs.PresetTables
import Excision.Proofs.FileTables
import Excision.Proofs.ProjectFiles
import Excision.Proofs.BodyEnds
import Excision.Proofs.Truncation
import Excision.Proofs.WordWalks
import Excision.Proofs.ReachableOpeners
import Excision.Proofs.Depths
import Excision.Proofs.TrailingBlanks
import Excision.Proofs.Shadowing
import Excision.Proofs.NameLists
import Excision.Proofs.Resolution
import Excision.Proofs.ShownPresets
import Excision.Proofs.UniqueReading
import Excision.Proofs.ReportTotals
import Excision.Proofs.Ancestors
import Excision.Proofs.NearestProjectFile
import Excision.Proofs.SaveRuns
import Excision.Proofs.AtomicSaves
import Excision.Proofs.Listings
import Excision.Proofs.Rereading
import Excision.Proofs.DeclaredNames
