import SchemaGraph.Compiler.Run
import SchemaGraph.Resolver.Document

set_option autoImplicit false

/-! # The command line

A run compiles the schema at a pointer of a file and, if a payload file is given,
converts its payload. The run is a function of the arguments and of what is known about files;
its report also says which documents it looked for, so that whoever runs it can find out about
those files and run again.
-/

namespace SchemaGraph

namespace CommandLine

/-- What is known about a file. -/
inductive FileState where
  /-- Its text, and its absolute name. -/
  | readable (text location : String)
  /-- Why it cannot be read. -/
  | failed (reason : String)
  deriving DecidableEq, Repr, Inhabited

/-- What is known about files, under the names they are looked for. -/
abbrev Files := List (String × FileState)

/-- A file that nothing is known about does not exist. -/
def stateOf (files : Files) (name : String) : FileState :=
  (files.lookup name).getD (.failed "No such file or directory (os error 2)")

/-- The text of a file. -/
def textOf? (files : Files) (name : String) : Option String :=
  match stateOf files name with
  | .readable text _ => some text
  | .failed _ => none

/-- What a run prints, its exit code, and the documents it looked for. -/
structure Report where
  out : List String
  err : List String
  code : Nat
  asked : List String
  deriving DecidableEq, Repr, Inhabited

def usage : List String := [
  "Usage: schema-check <schema-file> [pointer] [payload-file] [request|response]",
  "",
  "Examples:",
  "  schema-check openapi.yaml",
  "  schema-check openapi.yaml '#/components/schemas/Pet' pet.json"]

/-- The entity an argument names. -/
def entityOf? : Option String → Option Entity
  | none => some .request
  | some "request" => some .request
  | some "response" => some .response
  | some _ => none

/-- Read the document in a file: the document and the absolute name of the file. -/
def readFile (files : Files) (name : String) : Except String (Json × String) :=
  match stateOf files name with
  | .failed reason => .error reason
  | .readable text location =>
    match Document.read name text with
    | .ok document => .ok (document, location)
    | .error e => .error e.message

def cannotLoad (name reason : String) : String := "❌ Failed to load " ++ name ++ ": " ++ reason

/-- The number of errors, and each error on a line of its own. -/
def errorLines (errors : SchemaErrors) : List String :=
  ("❌ " ++ toString errors.length ++ " errors:") ::
    errors.toList.map fun error => "  " ++ error.text

/-- Convert a payload, after the lines printed so far. -/
def convert (files : Files) (fuel : Nat) (compiler : Compiler) (node : NodeId) (payload : String)
    (entity : Entity) (printed : List String) : Report :=
  let failed (out err : List String) : Report := ⟨out, err, 1, compiler.resolver.asked⟩
  match compiler.graph node with
  | .error e => failed printed ["❌ Failed to build converter: " ++ e.message]
  | .ok graph =>
    match readFile files payload with
    | .error reason => failed printed [cannotLoad payload reason]
    | .ok (document, _) =>
      let printed := printed ++ ["Converting " ++ payload ++ " as " ++ entity.name]
      match graph.convert fuel node document (Options.ofEntity entity).mode with
      | .converted result =>
        ⟨printed ++ ["✓ Payload converted:", result.value.toJson.pretty], [], 0,
          compiler.resolver.asked⟩
      | .failed errors => failed printed (errorLines errors)
      | _ => failed printed ["❌ The conversion nests too deep"]

/-- Compile the schema at a pointer of a document, and convert a payload if one is given. -/
def compile (files : Files) (fuel : Nat) (name pointer : String) (payload : Option String)
    (entity : Entity) (document : Json) (location : String) : Report :=
  let config := { Config.default with baseUri := (Url.ofFilePath location).text }
  let compiler := Compiler.ofDocument (Retriever.builtIn (textOf? files)) document config
  let printed := ["Compiling " ++ name ++ pointer]
  match compiler.compile fuel pointer with
  | (.error (.errors errors), compiler) =>
    ⟨printed, errorLines errors, 1, compiler.resolver.asked⟩
  | (.error _, compiler) => ⟨printed, ["❌ The schema nests too deep"], 1, compiler.resolver.asked⟩
  | (.ok node, compiler) =>
    let printed := printed ++ ["✓ Schema compiled (" ++ toString compiler.length ++ " nodes)"]
    match payload with
    | none => ⟨printed, [], 0, compiler.resolver.asked⟩
    | some payload => convert files fuel compiler node payload entity printed

/-- Run the program with its arguments. -/
def run (files : Files) (fuel : Nat) (args : List String) : Report :=
  match args with
  | [] => ⟨[], usage, 1, []⟩
  | name :: rest =>
    if 3 < rest.length then ⟨[], usage, 1, []⟩
    else match entityOf? rest[2]? with
      | none =>
        ⟨[], ["Error: unknown entity '" ++ rest[2]?.getD "" ++
          "', expected request or response"], 1, []⟩
      | some entity =>
        match readFile files name with
        | .error reason => ⟨[], [cannotLoad name reason], 1, []⟩
        | .ok (document, location) =>
          compile files fuel name (rest.headD "#") rest[1]? entity document location

/-- The files that the arguments name. -/
def namedFiles (args : List String) : List String := [args[0]?, args[2]?].filterMap id

/-- The files a run looked for. -/
def wantedFiles (report : Report) : List String := report.asked.filterMap Retriever.fileName?

/-- Lines as one text. -/
def lines (printed : List String) : String := String.join (printed.map (· ++ "\n"))

end CommandLine

end SchemaGraph
