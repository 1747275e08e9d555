/-
# Reading tokens off the front of a text

`Scans` says that some tokens can be read off the front of a text, and what is
left behind them. Scans follow one another, and the tokens of a text are those of
any scan of it with those of what the scan leaves. The text that is left is part
of the judgement, so no lexeme is cut short.

A newline lets the tokens of a text start anew: what stands behind it is read as
if nothing stood before, except for its place. The tokens before it are those
that the text would have had at the end of the input, unless one of them runs on
past the newline.

Main statement: `stream_append_newline`.
-/

import DiagramCheck.Proofs.Token.Extent

namespace DiagramCheck

namespace Token

/-! ## Scans -/

/-- The tokens that can be read off the front of a text which begins at one place, and what is left
behind them at another. -/
inductive Scans : Position → List Char → List Token → Position → List Char → Prop
  | done {place : Position} {text : List Char} : Scans place text [] place text
  | blank {place stop : Position} {c : Char} {text behind : List Char} {tokens : List Token}
      (white : Text.isBlank c = true) (later : Scans (place.step c) text tokens stop behind) :
      Scans place (c :: text) tokens stop behind
  | lexeme {place stop : Position} {kind : TokenKind} {written text behind : List Char}
      {tokens : List Token} (leads : Lexeme.Leads kind written text)
      (later : Scans (place.after written) text tokens stop behind) :
      Scans place (written ++ text) (ofLexeme kind written place :: tokens) stop behind

theorem stream_nil (place : Position) : stream place [] = [endOfInput place] := by
  unfold stream
  rfl

theorem stream_of_blank {place : Position} {c : Char} {text : List Char}
    (white : Text.isBlank c = true) : stream place (c :: text) = stream (place.step c) text := by
  conv_lhs => unfold stream
  exact if_pos white

theorem stream_of_leads {place : Position} {kind : TokenKind} {written behind : List Char}
    (leads : Lexeme.Leads kind written behind) :
    stream place (written ++ behind) =
      ofLexeme kind written place :: stream (place.after written) behind := by
  obtain ⟨c, tail, rfl, solid, next⟩ := leads.exists_cons
  rw [List.cons_append]
  conv_lhs => unfold stream
  rw [solid, if_neg Bool.false_ne_true]
  simp only [next, List.length_cons, Nat.add_sub_cancel, List.take_left, List.drop_left]

/-- Induction on the tokens of a text: a text is empty, or it begins with a blank or a lexeme. -/
@[elab_as_elim]
theorem text_induction {motive : Position → List Char → Prop} (nil : ∀ place, motive place [])
    (blank : ∀ place c text, Text.isBlank c = true → motive (place.step c) text →
      motive place (c :: text))
    (lexeme : ∀ place kind written behind, Lexeme.Leads kind written behind →
      motive (place.after written) behind → motive place (written ++ behind))
    (place : Position) (text : List Char) : motive place text := by
  fun_induction stream place text with
  | case1 place => exact nil place
  | case2 place c text white ih => exact blank place c text white ih
  | case3 place c text solid next length written ih =>
    have whole : c :: text = written ++ text.drop length := by
      rw [List.cons_append, List.take_append_drop]
    rw [whole]
    exact lexeme place _ written _ (Lexeme.leads_next (Bool.eq_false_iff.2 solid)) ih

namespace Scans

variable {place middle stop : Position} {text between behind : List Char}
  {first second : List Token}

theorem trans (scans : Scans place text first middle between)
    (next : Scans middle between second stop behind) :
    Scans place text (first ++ second) stop behind := by
  induction scans with
  | done => exact next
  | blank white _ ih => exact .blank white (ih next)
  | lexeme leads _ ih => exact .lexeme leads (ih next)

theorem gap {gap : List Char} (white : gap.all Text.isBlank = true) :
    Scans place (gap ++ text) [] (place.after gap) text := by
  induction gap generalizing place with
  | nil => exact .done
  | cons c gap ih =>
    rw [List.all_cons, Bool.and_eq_true] at white
    exact .blank white.1 (ih white.2)

/-- The tokens of a text are those of a scan and of what it leaves. -/
theorem stream_eq (scans : Scans place text first stop behind) :
    stream place text = first ++ stream stop behind := by
  induction scans with
  | done => rfl
  | blank white _ ih => rw [stream_of_blank white, ih]
  | lexeme leads _ ih => rw [stream_of_leads leads, ih, List.cons_append]

end Scans

/-- A blank source has no tokens but the end of the input. -/
theorem tokenize_of_isBlankText {source : String} (blank : Text.isBlankText source = true) :
    tokenize source = [endOfInput (Position.start.after source.toList)] := by
  have stream := (@Scans.gap .start [] _ blank).stream_eq
  rwa [List.append_nil, List.nil_append, stream_nil] at stream

/-! ## All lexemes of a text -/

/-- The tokens of a text that begins at `place`, without the end of the input. -/
def lexemes (place : Position) (text : List Char) : List Token := (stream place text).dropLast

theorem stream_eq_lexemes (place : Position) (text : List Char) :
    stream place text = lexemes place text ++ [endOfInput (place.after text)] := by
  obtain ⟨lexemes, split, -⟩ := (tiles_stream place text).eq_append
  rw [Token.lexemes, split, List.dropLast_concat]

@[simp] theorem lexemes_nil (place : Position) : lexemes place [] = [] := by
  rw [lexemes, stream_nil, List.dropLast_singleton]

theorem lexemes_of_blank {place : Position} {c : Char} {text : List Char}
    (white : Text.isBlank c = true) :
    lexemes place (c :: text) = lexemes (place.step c) text := by
  rw [lexemes, stream_of_blank white, lexemes]

theorem lexemes_of_leads {place : Position} {kind : TokenKind} {written behind : List Char}
    (leads : Lexeme.Leads kind written behind) :
    lexemes place (written ++ behind) =
      ofLexeme kind written place :: lexemes (place.after written) behind := by
  rw [lexemes, stream_of_leads leads, stream_eq_lexemes, ← List.cons_append,
    List.dropLast_concat]

/-- A token that can run on into what is put behind the text: a directive, or a string without its
closing quote. -/
def runsOn (token : Token) : Bool := token.kind == .directive || token.isUnterminatedString

private theorem runsOn_ofLexeme {kind : TokenKind} {written : List Char} {place : Position}
    (settled : (ofLexeme kind written place).runsOn = false) :
    kind ≠ .directive ∧ (kind = .string → lacksClosingQuote written = false) := by
  rw [runsOn, Bool.or_eq_false_iff, beq_eq_false_iff_ne] at settled
  refine ⟨?_, ?_⟩
  · rintro rfl
    exact settled.1 rfl
  · rintro rfl
    simpa [isUnterminatedString, ofLexeme] using settled.2

/-- The lexemes of a text can be read off it before something else when it leaves each of them as
it is. -/
theorem scans_append {stays : Token → Prop} {behind : List Char}
    (keeps : ∀ {kind : TokenKind} {written rest : List Char} {place : Position},
      stays (ofLexeme kind written place) → Lexeme.Leads kind written rest →
        Lexeme.Leads kind written (rest ++ behind))
    {place : Position} {text : List Char} (own : ∀ token ∈ lexemes place text, stays token) :
    Scans place (text ++ behind) (lexemes place text) (place.after text) behind := by
  induction place, text using text_induction with
  | nil place =>
    rw [lexemes_nil]
    exact .done
  | blank place c text white ih =>
    rw [lexemes_of_blank white] at own ⊢
    exact .blank white (ih own)
  | lexeme place kind written rest leads ih =>
    rw [lexemes_of_leads leads] at own ⊢
    obtain ⟨first, later⟩ := List.forall_mem_cons.1 own
    rw [List.append_assoc, Position.after_append]
    exact .lexeme (keeps first leads) (ih later)

/-- The lexemes of a text can be read off it before a newline when none of them runs on. -/
theorem scans_append_newline {place : Position} {text : List Char} (more : List Char)
    (settled : ∀ token ∈ lexemes place text, token.runsOn = false) :
    Scans place (text ++ '\n' :: more) (lexemes place text) (place.after text) ('\n' :: more) :=
  scans_append (fun own leads =>
    have ⟨undirected, closed⟩ := runsOn_ofLexeme own
    leads.append_newline more undirected closed) settled

/-- The lexemes of a text can be read off it before a semicolon when none of them runs over
blanks. -/
theorem scans_append_semicolon {place : Position} {text : List Char} (more : List Char)
    (plain : ∀ token ∈ lexemes place text, Lexeme.IsPlain token.kind) :
    Scans place (text ++ ';' :: more) (lexemes place text) (place.after text) (';' :: more) :=
  scans_append (fun {kind _ _ _} own leads => by
    refine leads.append_semicolon ?_ more
    by_cases word : kind = .identifier
    · rw [word]
      exact ⟨nofun, nofun, nofun⟩
    · rwa [ofLexeme, if_neg word] at own) plain

/-- Behind a newline the tokens of a text start anew, unless a token before it runs on. -/
theorem stream_append_newline {place : Position} {text : List Char} (more : List Char)
    (settled : ∀ token ∈ lexemes place text, token.runsOn = false) :
    stream place (text ++ '\n' :: more) =
      lexemes place text ++ stream ((place.after text).step '\n') more :=
  ((scans_append_newline more settled).trans (.blank rfl .done)).stream_eq.trans (by simp)

end Token

end DiagramCheck
