import StoryKnobs.Main
import StoryKnobs.FileTree.Disk
import StoryKnobs.FileTree.Memory
import StoryKnobs.Operation
import StoryKnobs.Proofs.Markers
import StoryKnobs.Proofs.Declarations
import StoryKnobs.Proofs.ClassBody
import StoryKnobs.Proofs.Paths
import StoryKnobs.Proofs.NormalForms
import StoryKnobs.Proofs.Disk
import StoryKnobs.Proofs.Generation
import StoryKnobs.Proofs.Alias
import StoryKnobs.Proofs.Memory
import StoryKnobs.Proofs.Operations
import StoryKnobs.Proofs.History
import StoryKnobs.Proofs.DirectPaths
import StoryKnobs.FileTree.Race
import StoryKnobs.Proofs.Places
import StoryKnobs.Proofs.Calls
import StoryKnobs.Proofs.Race
import StoryKnobs.Proofs.Finishing
import StoryKnobs.Proofs.Mirror
import StoryKnobs.Proofs.Independence
import StoryKnobs.Proofs.Resolution
import StoryKnobs.Proofs.StoryLines
import StoryKnobs.Proofs.Imports
import StoryKnobs.Proofs.PropertyNames
import StoryKnobs.Proofs.Entries
import StoryKnobs.Proofs.Leftovers
import StoryKnobs.Json.Document
import StoryKnobs.Command.Result
import StoryKnobs.Command.Presentation
import StoryKnobs.Command.Session
import StoryKnobs.Proofs.Readers
import StoryKnobs.Proofs.Documents
import StoryKnobs.Proofs.Runs
import StoryKnobs.Proofs.JsonReports
import StoryKnobs.Proofs.Arguments
import StoryKnobs.Proofs.Presentation
import StoryKnobs.Proofs.Tasks
import StoryKnobs.Proofs.Sessions
import StoryKnobs.Proofs.Siblings
import StoryKnobs.Proofs.Members
import StoryKnobs.Proofs.Statements
import StoryKnobs.Proofs.Comments
import StoryKnobs.Proofs.Inference
import StoryKnobs.Proofs.KnobImports
import StoryKnobs.Proofs.QuotedTexts
import StoryKnobs.Proofs.Skipping
import StoryKnobs.Proofs.Records
import StoryKnobs.Proofs.Drafts
import StoryKnobs.Proofs.SchemaTexts
import StoryKnobs.Proofs.NullableFields
import StoryKnobs.Proofs.Merging
import StoryKnobs.Proofs.SchemaFiles
import StoryKnobs.Proofs.NormalPlaces
import StoryKnobs.Proofs.LibraryRoot
import StoryKnobs.Proofs.StoryPaths
import StoryKnobs.Syntax.Walk
import StoryKnobs.Proofs.Subtrees
import StoryKnobs.Proofs.Walks
import StoryKnobs.Proofs.NormalJoins
import StoryKnobs.Extraction
import StoryKnobs.Proofs.Bytes
import StoryKnobs.Proofs.Quotations
