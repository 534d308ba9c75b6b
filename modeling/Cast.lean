import Cast.TransitionJournal.SuccessorProgress
import Cast.TransitionJournal.RollbackRunProperties
import Cast.TransitionJournal.StoreRunProperties
import Cast.BootPublication.PlanAcceptance
import Cast.BootPublication.PublicationHistory
import Cast.BootPublication.ReceiptStoreRuns
import Cast.Stone.RoundTrip
import Cast.Stone.StatefulReaderProperties
import Cast.Package.MetaProperties
import Cast.Vfs.RedirectProperties
import Cast.Materialization.CollisionProperties
import Cast.LuaConfig.ImportResolution
import Cast.LuaConfig.ValueProperties
import Cast.Archive.SymlinkProperties
import Cast.Package.Collect
import Cast.Fnmatch.Walker
import Cast.BuildPolicy.TextResources
import Cast.Triggers.Substitution
import Cast.Shell.Rendering
