import SchemaGraph.Config
import SchemaGraph.Conversion.Converted
import SchemaGraph.Json.Read
import SchemaGraph.Node.Draft
import SchemaGraph.Resolver.Document
import SchemaGraph.Schema.Format
import SchemaGraph.Value.Equality
import SchemaGraph.Compiler.Memory
import SchemaGraph.Schema.Model
import SchemaGraph.Compiler.Run
import SchemaGraph.Main
import SchemaGraph.Proofs.Compiler.Aliases
import SchemaGraph.Proofs.Compiler.Combinators
import SchemaGraph.Proofs.Compiler.Ending
import SchemaGraph.Proofs.Compiler.Polymorphism
import SchemaGraph.Proofs.Compiler.Responses
import SchemaGraph.Proofs.Compiler.Termination
import SchemaGraph.Proofs.Compiler.Unfolding
import SchemaGraph.Proofs.Conversion.Closure
import SchemaGraph.Proofs.Conversion.Signals
import SchemaGraph.Proofs.Conversion.Accord
import SchemaGraph.Proofs.Resolver.Caches
import SchemaGraph.Proofs.Resolver.Pointers
import SchemaGraph.Proofs.Resolver.Scopes
import SchemaGraph.Proofs.Compiler.Caches
import SchemaGraph.Proofs.Conversion.Anew
import SchemaGraph.Proofs.Conversion.Remembered
import SchemaGraph.Proofs.Compiler.Compilable
import SchemaGraph.Proofs.Compiler.Poison
import SchemaGraph.Proofs.Compiler.Histories
import SchemaGraph.Proofs.Conversion.Objects
import SchemaGraph.Proofs.Resolver.Home
import SchemaGraph.Proofs.Conversion.Calls
import SchemaGraph.Proofs.Conversion.Told
import SchemaGraph.Proofs.Conversion.Reports
import SchemaGraph.Proofs.Compiler.Reached
import SchemaGraph.Proofs.Compiler.Locations
import SchemaGraph.Proofs.Compiler.Reports
import SchemaGraph.Proofs.Conversion.Composites
import SchemaGraph.Proofs.Conversion.Defaults
import SchemaGraph.Proofs.Conversion.Lenient
import SchemaGraph.Proofs.Conversion.Located
import SchemaGraph.Proofs.Compiler.Balance
import SchemaGraph.Proofs.Conversion.Turns
import SchemaGraph.Proofs.Merging
import SchemaGraph.Proofs.Conversion.Cycles
import SchemaGraph.Proofs.Conversion.Formats
import SchemaGraph.Proofs.Path
import SchemaGraph.Proofs.Compiler.Retrieval
import SchemaGraph.Proofs.Conversion.Linked
import SchemaGraph.Proofs.Conversion.Verbatim
import SchemaGraph.Proofs.Compiler.Integers
import SchemaGraph.Proofs.Equality
import SchemaGraph.Proofs.Templates
import SchemaGraph.Proofs.Conversion.Casts
import SchemaGraph.Proofs.Compiler.Mistakes
import SchemaGraph.Proofs.Compiler.Variants
