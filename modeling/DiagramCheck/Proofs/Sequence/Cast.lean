/-
# Who takes part in a sequence diagram

While the statements of a diagram are read one by one, a roll is kept. It holds
the declarations and the messages so far, and every name that a declaration or a
message has mentioned, entered once, where it came first. A statement that is
rejected leaves the roll as it is. At the end those who are declared are struck
off the names, whether they were declared before they sent a message or after,
and who is left takes part behind the declared ones.

The diagram is what the roll comes to in this way. So nobody sends or receives a
message without taking part.

Main statement: `participants_close_over_messages`.
-/

import Mathlib.Data.List.Basic
import Mathlib.Data.List.Induction
import DiagramCheck.Proofs.Flowchart.Succession
import DiagramCheck.Proofs.Reading.Lines

namespace DiagramCheck.Sequence

/-! ## First mentions -/

private theorem firstMentions_filter (test : String → Bool) (names : List String) :
    firstMentions (names.filter test) = (firstMentions names).filter test := by
  induction names with
  | nil => rfl
  | cons name names ih =>
    rw [firstMentions, List.filter_cons, List.filter_cons]
    cases own : test name with
    | true => rw [if_pos rfl, if_pos rfl, firstMentions, ih, List.filter_filter,
        List.filter_filter, List.filter_congr fun _ _ => Bool.and_comm ..]
    | false =>
      rw [if_neg Bool.false_ne_true, if_neg Bool.false_ne_true, ih, List.filter_filter]
      -- What is taken out with the name has been taken out by the test.
      refine List.filter_congr fun other _ => ?_
      by_cases same : other = name
      · rw [same, own, Bool.false_and]
      · rw [bne_iff_ne.2 same, Bool.and_true]

/-- Every name is kept where it comes first. -/
theorem firstMentions_eq_eraseDups (names : List String) :
    firstMentions names = names.eraseDups := by
  induction length : names.length using Nat.strongRecOn generalizing names with
  | ind size ih =>
    cases names with
    | nil => rfl
    | cons name names =>
      have shorter : (names.filter (· != name)).length < size := by
        rw [← length]
        exact Nat.lt_succ_of_le (List.length_filter_le ..)
      rw [firstMentions, List.eraseDups_cons, ← firstMentions_filter, ih _ shorter _ rfl]
      rfl

private theorem mem_firstMentions {name : String} {names : List String} :
    name ∈ firstMentions names ↔ name ∈ names := by
  rw [firstMentions_eq_eraseDups, List.mem_eraseDups]

/-- Names come in the order in which they are mentioned first. -/
theorem pairwise_firstMentions (names : List String) :
    (firstMentions names).Pairwise fun first second =>
      names.idxOf first < names.idxOf second := by
  induction names with
  | nil => exact .nil
  | cons name names ih =>
    -- The first name stands at no distance, and every other one further than among the rest.
    have behind (other : String) (member : other ∈ (firstMentions names).filter (· != name)) :
        (name :: names).idxOf other = names.idxOf other + 1 := by
      have ne := bne_iff_ne.1 (List.mem_filter.1 member).2
      exact List.idxOf_cons_ne _ ne.symm
    refine List.pairwise_cons.2 ⟨fun other member => ?_, ?_⟩
    · rw [List.idxOf_cons_self, behind other member]
      exact Nat.succ_pos _
    · refine (ih.filter _).imp_of_mem fun member member' less => ?_
      rw [behind _ member, behind _ member']
      exact Nat.succ_lt_succ less

/-- Enters a name behind the others, unless it is among them. -/
def enter (names : List String) (name : String) : List String :=
  if name ∈ names then names else names ++ [name]

private theorem enter_firstMentions (names : List String) (name : String) :
    enter (firstMentions names) name = firstMentions (names ++ [name]) := by
  rw [enter, firstMentions_eq_eraseDups, firstMentions_eq_eraseDups, List.eraseDups_append]
  by_cases known : name ∈ names <;> simp [known, List.removeAll, List.eraseDups_cons]

/-! ## The roll -/

/-- The names that a statement declares or mentions. -/
def Statement.names : Statement → List String
  | .declaration participant => [participant.name]
  | .message sent => [sent.sender, sent.receiver]

/-- What is kept of a diagram while its statements are read. -/
structure Roll where
  declared : List Participant
  mentioned : List String
  messages : List Message
  deriving DecidableEq, Repr

namespace Roll

/-- The roll before the first statement. -/
def empty : Roll := ⟨[], [], []⟩

/-- The roll after another statement, if it is none that is rejected. -/
def step (roll : Roll) : Option Statement → Roll
  | none => roll
  | some (.declaration participant) =>
    ⟨roll.declared ++ [participant], enter roll.mentioned participant.name, roll.messages⟩
  | some (.message sent) =>
    ⟨roll.declared, enter (enter roll.mentioned sent.sender) sent.receiver,
      roll.messages ++ [sent]⟩

/-- The diagram that a roll comes to: who is declared is struck off the names. -/
def close (roll : Roll) : Sequence where
  participants :=
    roll.declared ++ (roll.mentioned.filter (· ∉ roll.declared.map Participant.name)).map
      fun name => ⟨name, none⟩
  messages := roll.messages

/-- A roll that tells of some statements. -/
structure Tells (roll : Roll) (statements : List Statement) : Prop where
  declared : roll.declared = statements.filterMap Statement.declared?
  mentioned : roll.mentioned = firstMentions (statements.flatMap Statement.names)
  messages : roll.messages = statements.filterMap Statement.message?

variable {roll : Roll} {statements : List Statement}

/-- One statement more is told of by the roll after it. -/
theorem Tells.step (tells : roll.Tells statements) (value : Option Statement) :
    (roll.step value).Tells (statements ++ value.toList) := by
  obtain ⟨declared, mentioned, messages⟩ := tells
  match value with
  | none =>
    rw [Option.toList_none, List.append_nil]
    exact ⟨declared, mentioned, messages⟩
  | some (.declaration participant) =>
    constructor
    · simp [Roll.step, declared, Statement.declared?]
    · simp [Roll.step, mentioned, enter_firstMentions, Statement.names]
    · simp [Roll.step, messages, Statement.message?]
  | some (.message sent) =>
    constructor
    · simp [Roll.step, declared, Statement.declared?]
    · simp [Roll.step, mentioned, enter_firstMentions, Statement.names]
    · simp [Roll.step, messages, Statement.message?]

/-- The roll that is kept over all statements tells of those that are not rejected. -/
theorem tells_foldl (values : List (Option Statement)) :
    (values.foldl Roll.step .empty).Tells (values.filterMap id) := by
  -- By induction from the end, where the next statement is read.
  induction values using List.reverseRecOn with
  | nil => exact ⟨rfl, rfl, rfl⟩
  | append_singleton values value ih =>
    rw [List.foldl_concat, List.filterMap_append]
    have tells := ih.step value
    cases value <;> exact tells

/-- Who is declared adds nobody to those whom messages mention. -/
theorem Tells.close_eq (tells : roll.Tells statements) : roll.close = ofStatements statements := by
  -- The roll has the declared names in between, but all of them are struck off.
  have same : (statements.flatMap Statement.names).filter
        (· ∉ (statements.filterMap Statement.declared?).map Participant.name) =
      (statements.flatMap Statement.mentions).filter
        (· ∉ (statements.filterMap Statement.declared?).map Participant.name) := by
    rw [List.filter_flatMap, List.filter_flatMap]
    refine List.flatMap_congr fun statement member => ?_
    cases statement with
    | message sent => rfl
    | declaration participant =>
      have listed : participant.name ∈
          (statements.filterMap Statement.declared?).map Participant.name :=
        List.mem_map_of_mem (List.mem_filterMap.2 ⟨_, member, rfl⟩)
      exact List.filter_cons_of_neg fun test => of_decide_eq_true test listed
  rw [close, ofStatements, undeclared, tells.declared, tells.mentioned, tells.messages,
    ← firstMentions_filter, same]
  simp

end Roll

/-! ## Statements of a source -/

/-- The items that the statements of a source begin with below its header, each with what is
behind it. -/
def beginnings (source : String) : List (Item × List Item) :=
  match Layout.items (Token.tokenize source) with
  | [] => []
  | header :: rest =>
    Reading.beginnings (readStatement (Layout.finish source))
      (readStatement_suffix (Layout.finish source)) (Items.skipLine header.line rest)

/-- What the statements of a source are read as, if they are not rejected and mean something of
their own. -/
def values (source : String) : List (Option Statement) :=
  (beginnings source).map fun place =>
    (readStatement (Layout.finish source) place.1 place.2).value

/-- The participants that a source declares, in order, each with the keyword that declares it. -/
def declarations (source : String) : List (Item × Participant) :=
  (beginnings source).filterMap fun place =>
    ((readStatement (Layout.finish source) place.1 place.2).value.bind
      Statement.declared?).map fun participant => (place.1, participant)

/-- The sequence diagram that a source is read as, if it is read as one. -/
def ofSource? (source : String) : Option Sequence :=
  (validate source).diagram?.bind fun diagram => diagram.content.sequence?

variable {source : String} {body : Sequence}

/-- A sequence diagram is made of the statements of its source, and nothing is wrong with any of
them if the source is valid. -/
theorem exists_statements (drawn : ofSource? source = some body) :
    body = ofStatements ((values source).filterMap id) ∧ (isValid source = true →
      ∀ place ∈ beginnings source,
        (readStatement (Layout.finish source) place.1 place.2).diagnostics = []) := by
  obtain ⟨diagram, drawn, content⟩ := Option.bind_eq_some_iff.1 drawn
  obtain ⟨header, rest, family, items, read, clean⟩ := Validation.exists_content drawn
    (by rintro unknown; rw [unknown] at content; cases content)
  rw [read] at content
  unfold values beginnings
  rw [items]
  cases family with
  | sequence =>
    obtain rfl : (Sequence.read (Layout.finish source) header.toToken rest).value = body :=
      Option.some.inj content
    constructor
    · rw [Sequence.read, statements, Reading.statements_eq_map, List.filterMap_map,
        List.filterMap_map]
      rfl
    · intro valid
      have clean : (Sequence.read (Layout.finish source) header.toToken rest).diagnostics = [] :=
        clean valid
      rw [Sequence.read, statements, Reading.statements_eq_map, List.flatMap_map,
        List.flatMap_eq_nil_iff] at clean
      exact clean
  | _ => cases content

private theorem eq_ofStatements (drawn : ofSource? source = some body) :
    body = ofStatements ((values source).filterMap id) :=
  (exists_statements drawn).1

/-- A statement that begins with a keyword and declares a participant by the name right behind it,
which stands on the same line. -/
def Declares (source : String) (keyword : Item) (participant : Participant) : Prop :=
  keyword.declaresParticipant = true ∧ ∃ behind, (keyword, behind) ∈ beginnings source ∧
    Items.frontIs keyword.line (·.isParticipantName) behind = true ∧
    participant = ⟨(Items.peekName (Layout.finish source) behind).value,
      (readAlias keyword.toToken (Items.peekName (Layout.finish source) behind)
        (Items.afterName behind)).value⟩

private theorem declared?_readMessage (finish : Token) (first : Item) (rest : List Item) :
    (readMessage finish first rest).value.bind Statement.declared? = none := by
  unfold readMessage readReceiver
  dsimp only
  repeat' split
  all_goals rfl

theorem readStatement_of_declares {finish : Token} {first : Item} {rest : List Item}
    (declares : first.declaresParticipant = true) :
    readStatement finish first rest = readDeclaration finish first.toToken rest := by
  have undecorated : first.decoration? = none ∧ first.kind ≠ .semicolon := by
    simp only [Token.declaresParticipant, Token.isWord, Bool.or_eq_true, Bool.and_eq_true,
      beq_iff_eq] at declares
    rcases declares with kind | ⟨kind, text⟩
    · simp [Item.decoration?, kind]
    · simp [Item.decoration?, kind, text, Decoration.ofKeyword?]
  rw [readStatement, undecorated.1]
  dsimp only
  rw [if_neg undecorated.2, if_pos declares]

/-- A statement declares when it begins with a keyword and has a name on the line of it. -/
theorem declared?_readStatement {finish : Token} {first : Item} {rest : List Item}
    {participant : Participant} :
    (readStatement finish first rest).value.bind Statement.declared? = some participant ↔
      first.declaresParticipant = true ∧
        Items.frontIs first.line (·.isParticipantName) rest = true ∧
        participant = ⟨(Items.peekName finish rest).value,
          (readAlias first.toToken (Items.peekName finish rest) (Items.afterName rest)).value⟩ := by
  cases declares : first.declaresParticipant with
  | true =>
    rw [readStatement_of_declares declares, readDeclaration]
    split
    · next named => simp [named, Statement.declared?, eq_comm]
    · next unnamed => simp [unnamed]
  | false =>
    -- No other statement declares.
    have none : (readStatement finish first rest).value.bind Statement.declared? = none := by
      unfold readStatement
      split
      · rfl
      · rw [declares]
        repeat' split
        any_goals rfl
        · cases ‹false = true›
        · exact declared?_readMessage ..
    simp [none]

private theorem snd_declarations (source : String) :
    (declarations source).map Prod.snd =
      ((values source).filterMap id).filterMap Statement.declared? := by
  rw [declarations, values, List.map_filterMap, List.filterMap_filterMap, List.filterMap_map]
  refine List.filterMap_congr fun place _ => ?_
  rw [Option.map_map]
  exact congrFun Option.map_id _

private theorem mem_declarations {keyword : Item} {participant : Participant} :
    (keyword, participant) ∈ declarations source ↔ Declares source keyword participant := by
  simp only [declarations, List.mem_filterMap, Option.map_eq_some_iff, declared?_readStatement,
    Prod.mk.injEq, Declares]
  constructor
  · rintro ⟨⟨_, behind⟩, listed, _, ⟨declares, named⟩, rfl, rfl⟩
    exact ⟨declares, behind, listed, named⟩
  · rintro ⟨declares, behind, listed, named⟩
    exact ⟨(keyword, behind), listed, participant, ⟨declares, named⟩, rfl, rfl⟩

theorem beginnings_sublist (source : String) :
    ((beginnings source).map Prod.fst).Sublist (Layout.items (Token.tokenize source)) := by
  unfold beginnings
  split
  · exact List.nil_sublist _
  · next header rest items =>
    rw [items]
    exact (Reading.beginnings_sublist ..).trans
      ((Items.skipLine_suffix ..).trans (List.suffix_cons ..)).sublist

theorem suffix_of_mem_beginnings {first : Item} {behind : List Item}
    (begins : (first, behind) ∈ beginnings source) :
    first :: behind <:+ Layout.items (Token.tokenize source) := by
  unfold beginnings at begins
  split at begins
  · cases begins
  · next header rest items =>
    rw [items]
    exact (Reading.suffix_of_mem_beginnings _ _ begins).trans
      ((Items.skipLine_suffix ..).trans (List.suffix_cons ..))

/-- Declarations come in the order in which their keywords stand in the source. -/
theorem declarations_sublist (source : String) :
    ((declarations source).map Prod.fst).Sublist (Layout.items (Token.tokenize source)) := by
  refine List.Sublist.trans ?_ (beginnings_sublist source)
  unfold declarations
  induction beginnings source with
  | nil => exact .slnil
  | cons place places ih =>
    rw [List.filterMap_cons, List.map_cons]
    split
    · exact ih.cons _
    · next entered =>
      obtain ⟨participant, -, rfl⟩ := Option.map_eq_some_iff.1 entered
      exact ih.cons_cons _

/-! ## Who takes part -/

/-- The names that the messages of a diagram mention, the sender of each before the receiver. -/
def mentions (body : Sequence) : List String :=
  body.messages.flatMap fun sent => [sent.sender, sent.receiver]

/-- The participants of a sequence diagram that a source is read as, of whom `implicit` take part
without being declared. -/
structure Cast (source : String) (body : Sequence) (implicit : List String) : Prop where
  /-- The diagram is what the roll of the statements comes to. -/
  called : body = ((values source).foldl Roll.step .empty).close
  /-- Declared participants come first, and the others have no name to be shown. -/
  participants : body.participants =
    (declarations source).map Prod.snd ++ implicit.map fun name => ⟨name, none⟩
  /-- The declarations are those that statements make. -/
  declared : ∀ keyword participant,
    (keyword, participant) ∈ declarations source ↔ Declares source keyword participant
  /-- They come in the order in which their keywords stand in the source. -/
  inOrder : ((declarations source).map Prod.fst).Sublist (Layout.items (Token.tokenize source))
  distinct : implicit.Nodup
  /-- Who takes part without being declared anywhere is mentioned by a message. -/
  mem_iff : ∀ name, name ∈ implicit ↔
    name ∈ body.mentions ∧ name ∉ (declarations source).map (·.2.name)
  /-- They come in the order in which they are mentioned first. -/
  ordered : implicit.Pairwise fun first second =>
    body.mentions.idxOf first < body.mentions.idxOf second
  closed : ∀ name ∈ body.mentions, name ∈ body.participants.map Participant.name

private theorem mentions_ofStatements (statements : List Statement) :
    (ofStatements statements).mentions = statements.flatMap Statement.mentions := by
  induction statements with
  | nil => rfl
  | cons statement statements ih =>
    cases statement with
    | declaration => exact ih
    | message sent => exact congrArg ([sent.sender, sent.receiver] ++ ·) ih

section Undeclared

variable {statements : List Statement}

/-- Who is not declared are the first mentions without the declared ones. -/
theorem undeclared_eq (statements : List Statement) :
    undeclared statements =
      (firstMentions (ofStatements statements).mentions).filter fun name =>
        !((statements.filterMap Statement.declared?).map Participant.name).contains name := by
  rw [undeclared, firstMentions_filter, mentions_ofStatements]

private theorem mem_undeclared {name : String} :
    name ∈ undeclared statements ↔ name ∈ (ofStatements statements).mentions ∧
      name ∉ (statements.filterMap Statement.declared?).map Participant.name := by
  rw [undeclared_eq, List.mem_filter, mem_firstMentions]
  simp

private theorem pairwise_undeclared (statements : List Statement) :
    (undeclared statements).Pairwise fun first second =>
      (ofStatements statements).mentions.idxOf first <
        (ofStatements statements).mentions.idxOf second := by
  rw [undeclared_eq]
  exact (pairwise_firstMentions _).filter _

private theorem nodup_undeclared (statements : List Statement) : (undeclared statements).Nodup := by
  refine (pairwise_undeclared statements).imp fun less same => ?_
  rw [same] at less
  exact Nat.lt_irrefl _ less

/-- Whoever sends or receives a message takes part, declared or not. -/
theorem mem_participants_of_mem_mentions {name : String}
    (mentioned : name ∈ (ofStatements statements).mentions) :
    name ∈ (ofStatements statements).participants.map Participant.name := by
  rw [ofStatements, List.map_append, List.mem_append]
  by_cases declared : name ∈ (statements.filterMap Statement.declared?).map Participant.name
  · exact .inl declared
  · have left := mem_undeclared.2 ⟨mentioned, declared⟩
    exact .inr (List.mem_map.2 ⟨⟨name, none⟩, List.mem_map_of_mem left, rfl⟩)

end Undeclared

/-- The participants of a sequence diagram close over its messages. First come the declarations of
the source, in its order, and then, each once and in the order of first mention, those whom messages
mention and no declaration of the diagram declares, before or after. So whoever sends or receives a
message takes part. -/
theorem participants_close_over_messages (drawn : ofSource? source = some body) :
    ∃ implicit, Cast source body implicit := by
  have declared := snd_declarations source
  have called := (Roll.tells_foldl (values source)).close_eq
  rw [← eq_ofStatements drawn] at called
  have own := eq_ofStatements drawn
  generalize (values source).filterMap id = statements at declared own
  subst own
  have names : (declarations source).map (·.2.name) =
      (statements.filterMap Statement.declared?).map Participant.name := by
    rw [← declared, List.map_map]
    rfl
  refine ⟨undeclared statements, called.symm, ?_, fun _ _ => mem_declarations,
    declarations_sublist source, nodup_undeclared statements, fun name => ?_,
    pairwise_undeclared statements, fun _ => mem_participants_of_mem_mentions⟩
  · rw [declared, ofStatements]
  · rw [names]
    exact mem_undeclared

/-- A participant who is declared late, one who is only declared, and a message that is rejected
because it has no sender. -/
theorem participants_close_over_messages_late :
    ofSource? "sequenceDiagram\nB->>A: hi\nA->>C\n->>D\nparticipant A as Z\nC->>B\nactor E" =
        some ⟨[⟨"A", some "Z"⟩, ⟨"E", none⟩, ⟨"B", none⟩, ⟨"C", none⟩],
          [⟨"B", "A", "hi", .solid⟩, ⟨"A", "C", "", .solid⟩, ⟨"C", "B", "", .solid⟩]⟩ ∧
      ∃ implicit,
        Cast "sequenceDiagram\nB->>A: hi\nA->>C\n->>D\nparticipant A as Z\nC->>B\nactor E"
          ⟨[⟨"A", some "Z"⟩, ⟨"E", none⟩, ⟨"B", none⟩, ⟨"C", none⟩],
            [⟨"B", "A", "hi", .solid⟩, ⟨"A", "C", "", .solid⟩, ⟨"C", "B", "", .solid⟩]⟩
          implicit :=
  ⟨by decide +kernel, participants_close_over_messages (by decide +kernel)⟩

end DiagramCheck.Sequence
