import Polyscript.Proofs.Json.Lexing

/-!
# Printed values are read back

The reader puts a value together from its tokens, whatever arrays and objects are open around
it. Since the lexer gives the tokens of a printed value, a canonical value is read back from its
printed form.
-/

namespace Polyscript.Json

/-- Characters are read as their tokens are accepted. -/
theorem readChars_of_lex {chars : List Char} {tokens : List Token} {lexer : Lexer}
    {reader result : Reader} (lexed : lexer.lex? chars = some tokens)
    (accepted : tokens.foldlM Reader.accept reader = some result) :
    ∃ last reached final, chars.foldlM readChar (lexer, reader) = some (last, reached) ∧
      last.finish = some final ∧ final.foldlM Reader.accept reached = some result := by
  induction chars generalizing lexer reader tokens with
  | nil => exact ⟨lexer, reader, tokens, rfl, lexed, accepted⟩
  | cons c rest ih =>
    obtain ⟨⟨next, first⟩, step, lexed⟩ := Option.bind_eq_some_iff.1 lexed
    obtain ⟨further, lexedRest, rfl⟩ : ∃ further, next.lex? rest = some further ∧
        first ++ further = tokens := Option.map_eq_some_iff.1 lexed
    -- what this character completes is accepted before the next character is read
    rw [List.foldlM_append] at accepted
    obtain ⟨reached, begun, accepted⟩ := Option.bind_eq_some_iff.1 accepted
    obtain ⟨last, reached', final, read, finished⟩ := ih lexedRest accepted
    refine ⟨last, reached', final, ?_, finished⟩
    have readChar : readChar (lexer, reader) c = some (next, reached) := by
      simp [Json.readChar, step, begun]
    rw [List.foldlM_cons, readChar]
    exact read

/-- A text is read as its tokens are accepted. -/
theorem ofText?_of_lex {text : String} {tokens : List Token} {value : Json}
    (lexed : Lexer.gap.lex? text.toList = some tokens)
    (accepted : tokens.foldlM Reader.accept (.wantValue []) = some (.complete value [])) :
    ofText? text = some value := by
  obtain ⟨last, reached, final, read, finished, accepted⟩ := readChars_of_lex lexed accepted
  simp [ofText?, read, finished, accepted, Reader.result?]

namespace Reader

/-- The first token of a value does not close an array. -/
theorem tokens_eq_cons (j : Json) : ∃ token ts, j.tokens = token :: ts ∧
    ∀ outer, accept (.firstItem outer) token = accept (.wantValue (.array [] :: outer)) token := by
  cases j with
  | array items => cases items <;> exact ⟨_, _, rfl, fun _ => rfl⟩
  | object members => cases members <;> exact ⟨_, _, rfl, fun _ => rfl⟩
  | bool value => cases value <;> exact ⟨_, _, rfl, fun _ => rfl⟩
  | null | number | string => exact ⟨_, _, rfl, fun _ => rfl⟩

end Reader

open Reader

/-- What is accepted after a value makes it an item or a member of what is open. -/
def Accepted (j : Json) : Prop :=
  ∀ (outer : List Frame) (rest : List Token),
    (j.tokens ++ rest).foldlM accept (.wantValue outer) = rest.foldlM accept (.complete j outer)

variable {j : Json} {outer : List Frame} {rest : List Token}

theorem Accepted.firstItem (accepted : Accepted j) :
    (j.tokens ++ rest).foldlM accept (.firstItem outer) =
      rest.foldlM accept (.complete j (.array [] :: outer)) := by
  rw [← accepted]
  obtain ⟨token, ts, isFirst, same⟩ := tokens_eq_cons j
  rw [isFirst, List.cons_append, List.foldlM_cons, List.foldlM_cons, same]

theorem accept_items {items : List Json} (all : ∀ item ∈ items, Accepted item) (read : List Json) :
    (itemTokens items ++ .closeArray :: rest).foldlM accept (.complete j (.array read :: outer)) =
      rest.foldlM accept (.complete (.array ((j :: read).reverse ++ items)) outer) := by
  induction items generalizing j read with
  | nil =>
    rw [List.append_nil]
    rfl
  | cons item items ih =>
    obtain ⟨here, others⟩ := List.forall_mem_cons.1 all
    have next : (itemTokens (item :: items) ++ .closeArray :: rest).foldlM accept
        (.complete j (.array read :: outer)) =
        (item.tokens ++ (itemTokens items ++ .closeArray :: rest)).foldlM accept
          (.wantValue (.array (j :: read) :: outer)) := by
      rw [itemTokens, List.cons_append, List.append_assoc]
      rfl
    rw [next, here, ih others]
    simp

theorem Accepted.member {key : Written} (accepted : Accepted j) (read : List (Written × Json)) :
    (memberToken (key, j) ++ rest).foldlM accept (.wantKey read outer) =
      rest.foldlM accept (.complete j (.member read key :: outer)) := by
  rw [← accepted]
  rfl

theorem accept_members {members : List (Written × Json)} {key : Written}
    (all : ∀ m ∈ members, Accepted m.2) (read : List (Written × Json)) :
    (memberTokens members ++ .closeObject :: rest).foldlM accept
        (.complete j (.member read key :: outer)) =
      rest.foldlM accept (.complete (.object (((key, j) :: read).reverse ++ members)) outer) := by
  induction members generalizing j key read with
  | nil =>
    rw [List.append_nil]
    rfl
  | cons member members ih =>
    obtain ⟨here, others⟩ := List.forall_mem_cons.1 all
    obtain ⟨name, value⟩ := member
    have next : (memberTokens ((name, value) :: members) ++ .closeObject :: rest).foldlM accept
        (.complete j (.member read key :: outer)) =
        (memberToken (name, value) ++ (memberTokens members ++ .closeObject :: rest)).foldlM accept
          (.wantKey ((key, j) :: read) outer) := by
      rw [memberTokens, List.cons_append, List.append_assoc]
      rfl
    rw [next, Accepted.member here, ih others]
    simp

/-- The reader accepts the tokens of a value. -/
theorem Canonical.accepted (canonical : Canonical j) : Accepted j := by
  induction canonical with
  | null | text value => exact fun _ _ => rfl
  | bool value => cases value <;> exact fun _ _ => rfl
  | natural value =>
    intro outer rest
    have begun : accept (.wantValue outer) (.word (toString value).toList) =
        some (.complete (Json.natural value) outer) := by
      rw [accept, begin, ofWord?_toString]
      rfl
    have tokens : (Json.natural value).tokens = [.word (toString value).toList] := rfl
    rw [tokens, List.cons_append, List.foldlM_cons, begun]
    rfl
  | array items all ih =>
    intro outer rest
    cases items with
    | nil => rfl
    | cons item items =>
      obtain ⟨here, others⟩ := List.forall_mem_cons.1 ih
      have opened : ((Json.array (item :: items)).tokens ++ rest).foldlM accept
          (.wantValue outer) =
          (item.tokens ++ (itemTokens items ++ .closeArray :: rest)).foldlM accept
            (.firstItem outer) := by
        simp only [Json.tokens, List.cons_append, List.append_assoc, List.nil_append]
        rfl
      rw [opened, Accepted.firstItem here, accept_items others]
      rfl
  | record members all ih =>
    intro outer rest
    have values : ∀ m ∈ members.map member, Accepted m.2 := List.forall_mem_map.2 ih
    rw [Json.record]
    generalize members.map member = members at values ⊢
    cases members with
    | nil => rfl
    | cons m members =>
      obtain ⟨here, others⟩ := List.forall_mem_cons.1 values
      obtain ⟨key, value⟩ := m
      have opened : ((Json.object ((key, value) :: members)).tokens ++ rest).foldlM accept
          (.wantValue outer) =
          (value.tokens ++ (memberTokens members ++ .closeObject :: rest)).foldlM accept
            (.wantValue (.member [] key :: outer)) := by
        simp only [Json.tokens, memberToken, List.cons_append, List.append_assoc,
          List.nil_append]
        rfl
      rw [opened, here, accept_members others]
      rfl

/-- A canonical value is read back from its printed form. -/
theorem Canonical.ofText?_pretty (canonical : Canonical j) : ofText? j.pretty = some j := by
  have lexed : Lexer.gap.lex? j.pretty.toList = some j.tokens := by
    have lexes := canonical.lexes_print 0 [] Lexer.endsWord_nil
    rw [List.append_nil] at lexes
    rw [Json.pretty, lexes]
    simp [Lexer.lex?, Lexer.finish]
  have accepted := canonical.accepted [] []
  rw [List.append_nil] at accepted
  exact ofText?_of_lex lexed accepted

end Polyscript.Json
