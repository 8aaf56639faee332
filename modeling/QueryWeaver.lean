import QueryWeaver.CommandLine.FileStore
import QueryWeaver.Database.Value
import QueryWeaver.Main
import QueryWeaver.Proofs.Source.Balanced
import QueryWeaver.Proofs.Access.CodeText
import QueryWeaver.Proofs.Access.Retokenize
import QueryWeaver.Proofs.Generation.Locality
import QueryWeaver.Proofs.Access.Emission
import QueryWeaver.Proofs.Source.Lexed
import QueryWeaver.Proofs.Source.Rewritten
import QueryWeaver.Proofs.Annotation.Resegment
import QueryWeaver.Proofs.Annotation.Values
import QueryWeaver.Proofs.Header.Resplice
import QueryWeaver.Proofs.Generation.Plans
import QueryWeaver.Proofs.Header.Declarations
import QueryWeaver.Proofs.Generation.Layouts
import QueryWeaver.Proofs.Generation.Regeneration
import QueryWeaver.Proofs.Generation.Idempotence
import QueryWeaver.Proofs.Annotation.Passages
import QueryWeaver.Proofs.Access.Registration
import QueryWeaver.Proofs.Access.Declared
import QueryWeaver.Proofs.Statement.Words
import QueryWeaver.Proofs.Statement.Closed
import QueryWeaver.Proofs.Statement.ColumnList
import QueryWeaver.Proofs.Statement.SelectItem
import QueryWeaver.Proofs.Statement.SelectList
import QueryWeaver.Proofs.Statement.Comments
import QueryWeaver.Proofs.Annotation.Entries
import QueryWeaver.Proofs.Statement.Rewriting
import QueryWeaver.Proofs.Generation.Calls
import QueryWeaver.Proofs.Generation.Probes
import QueryWeaver.Proofs.Header.Stability
import QueryWeaver.Proofs.Source.Grammar
import QueryWeaver.Proofs.Access.Flags
import QueryWeaver.Proofs.Generation.Prepared
import QueryWeaver.Proofs.Statement.Leftmost
import QueryWeaver.Proofs.Annotation.Stubs
import QueryWeaver.Proofs.Source.Context
import QueryWeaver.Proofs.Annotation.Grammars
import QueryWeaver.Proofs.Signature.Sentences
import QueryWeaver.Proofs.Signature.FieldList
import QueryWeaver.Proofs.Statement.Classification
import QueryWeaver.Proofs.Statement.Alias
import QueryWeaver.Proofs.Access.History
import QueryWeaver.Proofs.Access.Refusals
import QueryWeaver.Proofs.Generation.Contributions
import QueryWeaver.Proofs.Header.Exactness
import QueryWeaver.Proofs.Generation.Splicing
import QueryWeaver.Proofs.Access.Bindings
import QueryWeaver.Proofs.Access.Reads
import QueryWeaver.Proofs.Generation.Columns
import QueryWeaver.Proofs.Database.Retrying
import QueryWeaver.Proofs.Generation.Options
import QueryWeaver.Proofs.Database.Escalation
import QueryWeaver.Proofs.Database.Restoring
import QueryWeaver.Proofs.Database.Attachments
import QueryWeaver.Proofs.CommandLine.Saving
import QueryWeaver.Proofs.CommandLine.Steady
import QueryWeaver.Proofs.Statement.Composition
import QueryWeaver.Proofs.Generation.Ranges
