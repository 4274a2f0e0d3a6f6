import QueryTypes.Json.Reader
import QueryTypes.Json.Writer
import QueryTypes.GraphQL.Parser
import QueryTypes.GraphQL.Printer
import QueryTypes.GraphQL.Scrub
import QueryTypes.Text.SingleQuoted
import QueryTypes.Collected
import QueryTypes.TypeScript.Program
import QueryTypes.Schema.Basic
import QueryTypes.Schema.OfDocument
import QueryTypes.Shape.Object
import QueryTypes.ScalarTable
import QueryTypes.Shape.Batch
import QueryTypes.Artifact
import QueryTypes.Path.Specifier
import QueryTypes.FileTree.Basic
import QueryTypes.Hook
import QueryTypes.Disk
import QueryTypes.Run
import QueryTypes.Generator
import QueryTypes.Collection
import QueryTypes.Schema.OfFiles
import QueryTypes.Settings.Reading
import QueryTypes.Log.Format
import QueryTypes.CommandLine.Outcome
import QueryTypes.Main
import QueryTypes.Proofs.GraphQL.SyntaxTree
import QueryTypes.Proofs.GraphQL.Scrubbing
import QueryTypes.Proofs.Shape.Names
import QueryTypes.Proofs.Shape.Batch
import QueryTypes.Proofs.Collection
import QueryTypes.Proofs.Path.Basic
import QueryTypes.Proofs.Path.Specifier
import QueryTypes.Proofs.Artifact
import QueryTypes.Proofs.Settings
import QueryTypes.Proofs.Run.Recorded
import QueryTypes.Proofs.Run.Documents
import QueryTypes.Proofs.Run.Failures
import QueryTypes.Proofs.Run.Collected
import QueryTypes.Proofs.Run.Imports
import QueryTypes.Proofs.Shape.Occurrences
import QueryTypes.Proofs.Schema.Subtypes
import QueryTypes.Proofs.Shape.Responses
import QueryTypes.Proofs.Shape.Merging
import QueryTypes.Proofs.Shape.Soundness
import QueryTypes.Proofs.GraphQL.Spreads
import QueryTypes.Proofs.Shape.Inlining
import QueryTypes.Proofs.Run.Variables
import QueryTypes.Proofs.Run.Overwriting
import QueryTypes.Proofs.SortedNames
import QueryTypes.Proofs.Shape.NamedTypes
import QueryTypes.Proofs.Shape.Drafts
import QueryTypes.Proofs.Shape.Program
import QueryTypes.Proofs.Shape.Declarations
import QueryTypes.Proofs.Shape.Closed
import QueryTypes.Proofs.Shape.Scrubbing
import QueryTypes.Proofs.Shape.Permutations
import QueryTypes.Proofs.Artifact.Exports
import QueryTypes.Proofs.Run.Unnamed
import QueryTypes.Proofs.Disk
import QueryTypes.Proofs.Run.Invariants
import QueryTypes.Proofs.Run.Repetition
import QueryTypes.Proofs.FileTree
import QueryTypes.Proofs.TypeScript.Assignability
import QueryTypes.Proofs.Shape.Masking
import QueryTypes.Proofs.GraphQL.Rescrubbing
import QueryTypes.Proofs.Run.Separation
import QueryTypes.Proofs.Shape.Members
import QueryTypes.Proofs.Shape.Success
import QueryTypes.Proofs.Shape.Checks
import QueryTypes.Proofs.Shape.Failures
import QueryTypes.Proofs.Shape.Unmasked
import QueryTypes.Proofs.Shape.Worklist
import QueryTypes.Proofs.Shape.Reachable
import QueryTypes.Proofs.Path.Order
import QueryTypes.Proofs.FileTree.Listing
import QueryTypes.Proofs.Collection.Failures
import QueryTypes.Proofs.Collection.Files
import QueryTypes.Proofs.Run.Calls
import QueryTypes.Proofs.Settings.Loading
import QueryTypes.Proofs.Text.Quoted
import QueryTypes.Proofs.TypeScript.Spelling
import QueryTypes.Proofs.TypeScript.Unambiguous
import QueryTypes.Proofs.TypeScript.Regular
import QueryTypes.Proofs.TypeScript.Characters
import QueryTypes.Proofs.TypeScript.Keys
import QueryTypes.Proofs.TypeScript.Indentation
import QueryTypes.Proofs.Shape.Wrappers
