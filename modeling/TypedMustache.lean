import TypedMustache.Json.Parser
import TypedMustache.Json.Printer
import TypedMustache.JavaType.Document
import TypedMustache.Config.Schema
import TypedMustache.Config.LogDirectory
import TypedMustache.ClassTable.Standard
import TypedMustache.Context.Code
import TypedMustache.Proofs.Reachable
import TypedMustache.Proofs.Complement
import TypedMustache.Proofs.ElementType
import TypedMustache.Proofs.Anchors
import TypedMustache.Proofs.PathMarkers
import TypedMustache.Proofs.Transparency
import TypedMustache.Proofs.Enterable
import TypedMustache.Proofs.Accessors
import TypedMustache.Proofs.Erasure
import TypedMustache.Proofs.Subclassing
import TypedMustache.Proofs.Paths
import TypedMustache.Proofs.RawMembers
import TypedMustache.Proofs.Writers
import TypedMustache.Proofs.Building
import TypedMustache.Proofs.NullSafety
import TypedMustache.Proofs.BreadthFirst
import TypedMustache.Proofs.StringLiterals
import TypedMustache.Proofs.Refusals
import TypedMustache.Proofs.ErasedSubtyping
import TypedMustache.Proofs.Reflexivity
import TypedMustache.Proofs.Nesting
import TypedMustache.Proofs.TypeDocuments
import TypedMustache.Proofs.ConfigDocuments
import TypedMustache.Proofs.CapturedNames
import TypedMustache.Proofs.EmptyNames
import TypedMustache.Proofs.CollapsedArrays
