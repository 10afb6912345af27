import SchemaGraph.Message.Key

set_option autoImplicit false

/-! # Message tables

A table overrides some of the built-in texts. `Messages.format` fills in the arguments: the
template is gone through once, from left to right, a placeholder is `{`, digits and `}` with
the number of an argument between them, and everything else stands for itself. Arguments are
never searched for placeholders.
-/

namespace SchemaGraph

/-! ## Templates -/

namespace Template

/-- The argument a placeholder names, read after its opening brace, and what follows it. -/
def placeholder? (args : List String) (text : List Char) : Option (String × List Char) :=
  let digits := text.takeWhile (· != '\x7d')
  match text.dropWhile (· != '\x7d') with
  | [] => none
  | _ :: rest =>
    if digits.isEmpty || !digits.all Ascii.isDigit then none
    else args[Ascii.decimalValue digits]?.map fun arg => (arg, rest)

theorem placeholder?_rest_length {args : List String} {text : List Char} {arg : String}
    {rest : List Char} (h : placeholder? args text = some (arg, rest)) :
    rest.length < text.length := by
  simp only [placeholder?] at h
  split at h
  · simp at h
  next c tail htail =>
    split at h
    · simp at h
    · simp only [Option.map_eq_some_iff, Prod.mk.injEq] at h
      obtain ⟨_, _, _, rfl⟩ := h
      have hle : (text.dropWhile (· != '\x7d')).length ≤ text.length :=
        (List.dropWhile_sublist _).length_le
      rw [htail] at hle
      simp at hle
      omega

/-- Replace the placeholders of a template by the arguments they name. -/
def fill (args : List String) (text : List Char) : List Char :=
  match text with
  | [] => []
  | c :: rest =>
    if c == '\x7b' then
      match _h : placeholder? args rest with
      | some (arg, after) => arg.toList ++ fill args after
      | none => c :: fill args rest
    else c :: fill args rest
  termination_by text.length
  decreasing_by
    · have := placeholder?_rest_length _h
      simp; omega
    · simp
    · simp

end Template

/-! ## Tables -/

/-- The replaced texts, one for a key. -/
structure Messages where
  overrides : List (MessageKey × String)
  deriving DecidableEq, Repr, Inhabited

namespace Messages

/-- The table of the built-in texts. -/
def builtIn : Messages := ⟨[]⟩

/-- Replace the text of one message. -/
def override (key : MessageKey) (text : String) (messages : Messages) : Messages :=
  ⟨(key, text) :: messages.overrides.filter fun (k, _) => k != key⟩

/-- The overrides of `other` on top of these. -/
def merged (messages other : Messages) : Messages :=
  other.overrides.foldr (fun (key, text) done => done.override key text) messages

/-- The text of a key. -/
def get (messages : Messages) (key : MessageKey) : String :=
  (messages.overrides.lookup key).getD key.defaultText

/-- The text of a key with its placeholders filled. -/
def format (messages : Messages) (key : MessageKey) (args : List String) : String :=
  String.ofList (Template.fill args (messages.get key).toList)

end Messages

end SchemaGraph
