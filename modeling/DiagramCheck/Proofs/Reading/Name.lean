/-
# Names spelled by several items

A name is one item together with the name items that touch it. Its text is that
of all of them put together, and it covers the source from the start of the
first to the end of the last.
-/

import DiagramCheck.Proofs.Layout.Order
import DiagramCheck.Reading.Basic

namespace DiagramCheck

namespace Token

/-- The byte where a name ends that is spelled up to byte `stop`, once the name tokens that touch
it are added. -/
def touchingStop (stop : Nat) : List Token → Nat
  | [] => stop
  | token :: rest =>
    if token.isName && token.offset == stop then touchingStop token.stop rest else stop

theorem isName_kind_ne_string {token : Token} (name : token.isName = true) :
    token.kind ≠ .string := by
  intro string
  rw [isName, string] at name
  cases name

theorem value_of_isName {token : Token} (name : token.isName = true) :
    token.value = token.text := by
  rw [value, if_neg (isName_kind_ne_string name)]

theorem isName_isSignificant {token : Token} (name : token.isName = true) :
    token.isSignificant = true := by
  unfold isName at name
  unfold isSignificant
  split <;> simp_all

end Token

namespace Items

theorem touching_isPrefixOf (stop : Nat) (items : List Item) : touching stop items <+: items := by
  fun_induction touching stop items with
  | case1 => exact List.prefix_refl _
  | case2 _ first rest _ ih => exact (List.prefix_cons_inj first).2 ih
  | case3 => exact List.nil_prefix

theorem isName_of_mem_touching {stop : Nat} {items : List Item} :
    ∀ item ∈ touching stop items, item.isName = true := by
  fun_induction touching stop items with
  | case1 => exact fun _ absent => by cases absent
  | case2 _ first rest touches ih =>
    rw [Bool.and_eq_true] at touches
    exact List.forall_mem_cons.2 ⟨touches.1, ih⟩
  | case3 => exact fun _ absent => by cases absent

/-- Whether two items touch. -/
def Touch (item next : Item) : Prop := next.offset = item.stop

/-- The items that continue a name touch each other, and no further name touches them. -/
theorem touching_spec (first : Item) (rest : List Item) : ∃ behind,
    rest = touching first.stop rest ++ behind ∧
      (first :: touching first.stop rest).IsChain Touch ∧
      ∀ last ∈ (first :: touching first.stop rest).getLast?, ∀ next ∈ behind.head?,
        next.isName = true → ¬ Touch last next := by
  induction rest generalizing first with
  | nil => exact ⟨[], rfl, .singleton first, fun _ _ _ absent => by cases absent⟩
  | cons second rest ih =>
    rw [touching]
    split
    · next touches =>
      rw [Bool.and_eq_true, beq_iff_eq] at touches
      obtain ⟨behind, split, chain, apart⟩ := ih second
      refine ⟨behind, by rw [List.cons_append, ← split], .cons_cons touches.2 chain, ?_⟩
      rwa [List.getLast?_cons_cons]
    · next touches =>
      rw [Bool.and_eq_true, beq_iff_eq] at touches
      refine ⟨second :: rest, rfl, .singleton first, ?_⟩
      rintro _ ⟨⟩ _ ⟨⟩ named touch
      exact touches ⟨named, touch⟩

/-- Names that touch each other continue the first of them, if no further name touches the last. -/
theorem touching_eq_of_chain {first : Item} {more behind : List Item}
    (named : ∀ item ∈ more, item.isName = true) (touch : (first :: more).IsChain Touch)
    (apart : ∀ last ∈ (first :: more).getLast?, ∀ next ∈ behind.head?,
      next.isName = true → ¬ Touch last next) :
    touching first.stop (more ++ behind) = more := by
  induction more generalizing first with
  | nil =>
    cases behind with
    | nil => rfl
    | cons next behind =>
      rw [List.nil_append, touching, if_neg]
      rw [Bool.and_eq_true, beq_iff_eq]
      exact fun touches => apart first rfl next rfl touches.1 touches.2
  | cons second more ih =>
    obtain ⟨own, named⟩ := List.forall_mem_cons.1 named
    rw [List.isChain_cons_cons] at touch
    rw [List.getLast?_cons_cons] at apart
    have touches : second.offset = first.stop := touch.1
    rw [List.cons_append, touching, own, touches, beq_self_eq_true, Bool.and_self, if_pos rfl,
      ih named touch.2 apart]

/-- A name takes in no more items than there are. -/
theorem nameLength_le (items : List Item) : nameLength items ≤ items.length := by
  cases items with
  | nil => exact Nat.le_refl _
  | cons first rest =>
    rw [nameLength]
    split
    · exact Nat.succ_le_succ (touching_isPrefixOf first.stop rest).length_le
    · exact Nat.zero_le _

section Single

variable {first : Item} (other : first.isName = false) (rest : List Item)

include other

theorem nameLength_of_not_isName : nameLength (first :: rest) = 0 := by
  rw [nameLength, other, if_neg Bool.false_ne_true]

/-- An item that is no name is shown as it is. -/
theorem peekName_of_not_isName (finish : Token) :
    peekName finish (first :: rest) = first.toToken := by
  rw [peekName, nameLength_of_not_isName other, if_pos (Nat.zero_le 1), front]

/-- An item that is no name is taken alone. -/
theorem afterName_of_not_isName : afterName (first :: rest) = rest := by
  rw [afterName, nameLength_of_not_isName other]
  rfl

end Single

/-- A name is taken with the items that touch it. -/
theorem afterName_of_isName {first : Item} (name : first.isName = true) (rest : List Item) :
    afterName (first :: rest) = rest.drop (touching first.stop rest).length := by
  rw [afterName, nameLength, if_pos name, Nat.max_eq_right (Nat.le_add_left ..),
    List.drop_succ_cons]

/-- The items that spell the name at the front, when there is one. -/
theorem take_nameLength {first : Item} {rest : List Item} (name : first.isName = true) :
    (first :: rest).take (nameLength (first :: rest)) = first :: touching first.stop rest := by
  rw [nameLength, if_pos name, List.take_succ_cons]
  exact congrArg _ (List.prefix_iff_eq_take.1 (touching_isPrefixOf first.stop rest)).symm

/-- The text of a name is that of its items put together. -/
theorem text_peekName (finish : Token) {first : Item} {rest : List Item}
    (name : first.isName = true) :
    (peekName finish (first :: rest)).text =
      String.join ((first :: touching first.stop rest).map (·.text)) := by
  rw [peekName, ← take_nameLength name]
  split
  · -- A name of one token is left as it is.
    next short =>
    have alone : nameLength (first :: rest) = 1 := by
      rw [nameLength, if_pos name] at short ⊢
      omega
    rw [alone]
    simp [front, String.join_cons]
  · rfl

/-- The name at the front is spelled by name items that touch each other, and no further name
touches them. -/
theorem exists_pieces {first : Item} (rest : List Item) (name : first.isName = true) : ∃ more,
    rest = more ++ afterName (first :: rest) ∧
      (∀ item ∈ first :: more, item.isName = true) ∧ (first :: more).IsChain Touch ∧
      (∀ last ∈ (first :: more).getLast?, ∀ next ∈ (afterName (first :: rest)).head?,
        next.isName = true → ¬ Touch last next) ∧
      ∀ finish, (peekName finish (first :: rest)).text =
        String.join ((first :: more).map (·.text)) := by
  obtain ⟨behind, split, chain, apart⟩ := touching_spec first rest
  have after : afterName (first :: rest) = behind := by
    have dropped := congrArg (List.drop (touching first.stop rest).length) split
    rwa [List.drop_left, ← afterName_of_isName name] at dropped
  rw [after]
  exact ⟨touching first.stop rest, split, List.forall_mem_cons.2 ⟨name, isName_of_mem_touching⟩,
    chain, apart, fun finish => text_peekName finish name⟩

/-- A name begins with an item that is a name by itself. -/
theorem isName_of_peekName {finish : Token} {first : Item} {rest : List Item}
    (name : (peekName finish (first :: rest)).isName = true) : first.isName = true := by
  cases own : first.isName with
  | true => rfl
  | false =>
    rw [peekName_of_not_isName own, own] at name
    cases name

theorem kind_peekName (finish : Token) (items : List Item) :
    (peekName finish items).kind = (front finish items).kind := by
  rw [peekName]
  split <;> rfl

theorem position_peekName (finish : Token) (items : List Item) :
    (peekName finish items).position = (front finish items).position := by
  rw [peekName]
  split <;> rfl

/-- The items that touch a name which ends at byte `stop` bring it to its end. -/
theorem stop_add_touching (stop : Nat) (items : List Item) :
    stop + (String.join ((touching stop items).map (·.text))).utf8ByteSize =
      Token.touchingStop stop (items.map Item.toToken) := by
  fun_induction touching stop items with
  | case1 => rfl
  | case2 stop first rest touches ih =>
    simp only [List.map_cons]
    rw [Token.touchingStop, if_pos touches, ← ih, String.join_cons, String.utf8ByteSize_append,
      Token.stop]
    simp only [Bool.and_eq_true, beq_iff_eq] at touches
    omega
  | case3 stop first rest apart =>
    rw [List.map_cons, Token.touchingStop, if_neg apart]
    rfl

/-- A name covers the source from the start of its first item to the end of its last. -/
theorem offset_add_peekName (finish : Token) {first : Item} {rest : List Item}
    (name : first.isName = true) :
    first.offset + (peekName finish (first :: rest)).text.utf8ByteSize =
      Token.touchingStop first.stop (rest.map Item.toToken) := by
  rw [text_peekName finish name, ← stop_add_touching, List.map_cons, String.join_cons,
    String.utf8ByteSize_append, Token.stop]
  omega

end Items

end DiagramCheck
