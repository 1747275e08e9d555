/-
# Sequence diagrams

A sequence diagram declares participants and sends messages between them.
Nobody has to be declared: whoever sends or receives a message takes part. The
participants are listed with the declared ones first, in the order of their
declarations, and then the others in the order in which messages mention them,
each once.
-/

import DiagramCheck.Token.Kind

namespace DiagramCheck

/-- A participant and the name shown for it. -/
structure Participant where
  name : String
  displayName : Option String
  deriving DecidableEq, Repr

/-- The stroke of a message. -/
inductive MessageStroke
  | solid
  | dotted
  | thick
  deriving DecidableEq, Repr

namespace MessageStroke

/-- The name of a stroke, as results show it. -/
def tag : MessageStroke → String
  | .solid => "solid"
  | .dotted => "dotted"
  | .thick => "thick"

/-- The stroke that an arrow draws. -/
def ofArrow : Arrow → MessageStroke
  | .thick => .thick
  | .plain | .dashedOpen | .dotted => .dotted
  | .line | .short | .shortOpen => .solid

end MessageStroke

/-- A message from one participant to another. -/
structure Message where
  sender : String
  receiver : String
  text : String
  stroke : MessageStroke
  deriving DecidableEq, Repr

/-- A sequence diagram. -/
structure Sequence where
  participants : List Participant
  messages : List Message
  deriving DecidableEq, Repr

namespace Sequence

/-- The statements of a sequence diagram that have a meaning of their own. -/
inductive Statement
  | declaration (participant : Participant)
  | message (message : Message)
  deriving DecidableEq, Repr

namespace Statement

/-- The participant a statement declares. -/
def declared? : Statement → Option Participant
  | .declaration participant => some participant
  | .message _ => none

/-- The message a statement sends. -/
def message? : Statement → Option Message
  | .declaration _ => none
  | .message sent => some sent

/-- The names that a message mentions, the sender first. -/
def mentions : Statement → List String
  | .declaration _ => []
  | .message sent => [sent.sender, sent.receiver]

end Statement

/-- The names of a list without repetition, each where it comes first. -/
def firstMentions : List String → List String
  | [] => []
  | name :: rest => name :: (firstMentions rest).filter (· != name)

/-- The names that messages mention and no declaration declares, in order of first mention. -/
def undeclared (statements : List Statement) : List String :=
  let declared := (statements.filterMap Statement.declared?).map Participant.name
  firstMentions ((statements.flatMap Statement.mentions).filter fun name =>
    !declared.contains name)

/-- The diagram that some statements make. -/
def ofStatements (statements : List Statement) : Sequence where
  participants :=
    statements.filterMap Statement.declared? ++
      (undeclared statements).map fun name => ⟨name, none⟩
  messages := statements.filterMap Statement.message?

end Sequence

end DiagramCheck
