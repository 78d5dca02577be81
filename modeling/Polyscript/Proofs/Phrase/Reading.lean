import Polyscript.Proofs.Phrase.Grammar

/-!
# Reading phrases

Tokens are read from left to right with a stack of what is still open. An operator first
closes whatever binds at least as tightly as itself. Reading gives a phrase exactly if the
phrase fits the grammar and has these tokens, so a phrase that fits is what its tokens mean
and the only one that they can mean.
-/

namespace Polyscript

open Model (BinaryOp)

/-- What is open before the phrase that is being read. -/
inductive Frame where
  | group
  | not
  | left (op : BinaryOp) (lhs : Phrase)
  | ask (cond : Phrase)
  | answer (cond yes : Phrase)

/-- What has been read: the open frames, the innermost first, and the phrase that has been
read in the innermost one; none where a phrase has yet to begin. -/
structure Reader where
  frames : List Frame
  value : Option Phrase

/-- The step of a sign. -/
def Stepping.ofSign? (token : String) : Option Stepping :=
  if token = "++" then some .increment
  else if token = "--" then some .decrement
  else none

/-- The phrase of a token that is a name or a number. -/
def Phrase.ofToken? (token : String) : Option Phrase :=
  if isWord token then some (.name token)
  else if isNumber token then some (.number token)
  else none

namespace Grammar

variable (g : Grammar)

/-- The operator between two phrases of a spelling. -/
def operator? (token : String) : Option BinaryOp :=
  BinaryOp.all.find? (g.spelling · = token)

/-- Close the frames that bind at least as tightly as a level. -/
def close (level : Nat) : List Frame → Phrase → List Frame × Phrase
  | .not :: frames, v => close level frames (.not v)
  | .left op lhs :: frames, v =>
    if level ≤ g.level op then close level frames (.binary op lhs v)
    else (.left op lhs :: frames, v)
  | .answer cond yes :: frames, v =>
    if level = 0 then close level frames (.conditional cond yes v)
    else (.answer cond yes :: frames, v)
  | frames, v => (frames, v)

/-- Read a token where a phrase begins. -/
def readFirst (frames : List Frame) (token : String) : Option Reader :=
  if token = "(" then some ⟨.group :: frames, none⟩
  else if token = "!" then some ⟨.not :: frames, none⟩
  else (Phrase.ofToken? token).map fun v => ⟨frames, some v⟩

/-- Read a token after a phrase. -/
def readNext (frames : List Frame) (v : Phrase) (token : String) : Option Reader :=
  if token = ")" then
    match g.close 0 frames v with
    | (.group :: frames, v) => some ⟨frames, some (.group v)⟩
    | _ => none
  else if token = "?" then
    let (frames, v) := g.close 1 frames v
    some ⟨.ask v :: frames, none⟩
  else if token = ":" then
    match g.close 0 frames v with
    | (.ask cond :: frames, v) => some ⟨.answer cond v :: frames, none⟩
    | _ => none
  else match Stepping.ofSign? token, v with
    | some stepping, .name word => some ⟨frames, some (.step stepping word)⟩
    | some _, _ => none
    | none, _ => (g.operator? token).map fun op =>
      let (frames, v) := g.close (g.level op) frames v
      ⟨.left op v :: frames, none⟩

/-- Read a token. -/
def readToken (r : Reader) (token : String) : Option Reader :=
  match r.value with
  | none => readFirst r.frames token
  | some v => g.readNext r.frames v token

/-- The phrase that has been read, if nothing remains open. -/
def finish (r : Reader) : Option Phrase :=
  match r.value with
  | none => none
  | some v => match g.close 0 r.frames v with
    | ([], v) => some v
    | _ => none

/-- Read tokens. -/
def read (tokens : List String) : Option Phrase :=
  (tokens.foldlM g.readToken ⟨[], none⟩).bind g.finish

end Grammar

variable {g : Grammar}

/-- Whether no open frame is closed at a level. -/
def Stops (g : Grammar) (level : Nat) : List Frame → Prop
  | .not :: _ => False
  | .left op _ :: _ => g.level op < level
  | .answer .. :: _ => 0 < level
  | _ => True

theorem Stops.mono {level level' : Nat} {frames : List Frame} (stops : Stops g level frames)
    (le : level ≤ level') : Stops g level' frames := by
  match frames with
  | .left op _ :: _ => exact Nat.lt_of_lt_of_le stops le
  | .answer .. :: _ => exact Nat.lt_of_lt_of_le stops le
  | [] | .group :: _ | .ask _ :: _ => trivial

theorem close_of_stops {level : Nat} {frames : List Frame} (stops : Stops g level frames)
    (v : Phrase) : g.close level frames v = (frames, v) := by
  match frames with
  | .left op _ :: _ =>
    have lower : ¬level ≤ g.level op := Nat.not_le.2 stops
    simp [Grammar.close, lower]
  | .answer .. :: _ =>
    have notZero : level ≠ 0 := Nat.ne_of_gt stops
    simp [Grammar.close, notZero]
  | [] | .group :: _ | .ask _ :: _ => rfl

/-! ## Tokens with which a phrase begins -/

theorem isWord_of_isNumber {digits : String} (number : isNumber digits) :
    isWord digits = false := by
  rw [isNumber, Bool.and_eq_true] at number
  rw [isWord]
  cases chars : digits.toList with
  | nil => rfl
  | cons c rest =>
    have isDigit : c.isDigit = true := by
      have all := number.2
      rw [chars, List.all_cons, Bool.and_eq_true] at all
      exact all.1
    simp [isDigit]

theorem readFirst_ofToken {token : String} {v : Phrase}
    (leaf : Phrase.ofToken? token = some v) (frames : List Frame) :
    Grammar.readFirst frames token = some ⟨frames, some v⟩ := by
  have opening : token ≠ "(" := by
    rintro rfl
    have noLeaf : Phrase.ofToken? "(" = none := by decide
    cases noLeaf.symm.trans leaf
  have negation : token ≠ "!" := by
    rintro rfl
    have noLeaf : Phrase.ofToken? "!" = none := by decide
    cases noLeaf.symm.trans leaf
  simp [Grammar.readFirst, opening, negation, leaf]

theorem ofToken?_of_isWord {word : String} (isName : isWord word) :
    Phrase.ofToken? word = some (.name word) := by
  simp [Phrase.ofToken?, isName]

theorem ofToken?_of_isNumber {digits : String} (number : isNumber digits) :
    Phrase.ofToken? digits = some (.number digits) := by
  simp [Phrase.ofToken?, isWord_of_isNumber number, number]

/-! ## Tokens that follow a phrase -/

theorem operator?_spelling (op : BinaryOp) : g.operator? (g.spelling op) = some op := by
  have same (op' : BinaryOp) : g.spelling op' = g.spelling op ↔ op' = op :=
    g.spelling_injective.eq_iff
  cases op <;> simp [Grammar.operator?, BinaryOp.all, same]

theorem eq_spelling_of_operator? {token : String} {op : BinaryOp}
    (found : g.operator? token = some op) : token = g.spelling op := by
  have spelled := List.find?_some found
  exact (of_decide_eq_true spelled).symm

theorem readNext_operator (op : BinaryOp) (frames : List Frame) (v : Phrase) :
    g.readNext frames v (g.spelling op) =
      some ⟨.left op (g.close (g.level op) frames v).2 :: (g.close (g.level op) frames v).1,
        none⟩ := by
  have distinct := g.spelling_notMem op
  simp only [punctuation, List.mem_cons, List.not_mem_nil, or_false, not_or] at distinct
  obtain ⟨_, closing, _, asking, answering, up, down⟩ := distinct
  simp [Grammar.readNext, Stepping.ofSign?, operator?_spelling, closing, asking, answering, up,
    down]

theorem ofSign?_sign (stepping : Stepping) : Stepping.ofSign? stepping.sign = some stepping := by
  cases stepping <;> decide

theorem readNext_sign (stepping : Stepping) (frames : List Frame) (word : String) :
    g.readNext frames (.name word) stepping.sign =
      some ⟨frames, some (.step stepping word)⟩ := by
  have others : stepping.sign ≠ ")" ∧ stepping.sign ≠ "?" ∧ stepping.sign ≠ ":" := by
    cases stepping <;> decide
  simp [Grammar.readNext, ofSign?_sign, others]

theorem readNext_closing {frames rest : List Frame} {v inner : Phrase}
    (closes : g.close 0 frames v = (.group :: rest, inner)) :
    g.readNext frames v ")" = some ⟨rest, some (.group inner)⟩ := by
  simp [Grammar.readNext, closes]

theorem readNext_asking (frames : List Frame) (v : Phrase) :
    g.readNext frames v "?" =
      some ⟨.ask (g.close 1 frames v).2 :: (g.close 1 frames v).1, none⟩ := by
  simp [Grammar.readNext]

theorem readNext_answering {frames rest : List Frame} {v cond yes : Phrase}
    (closes : g.close 0 frames v = (.ask cond :: rest, yes)) :
    g.readNext frames v ":" = some ⟨.answer cond yes :: rest, none⟩ := by
  simp [Grammar.readNext, closes]

/-! ## A phrase that fits is read -/

namespace Phrase

/-- The frames that a phrase leaves open when its last token has been read. -/
def pending : Phrase → List Frame
  | .binary op lhs rhs => rhs.pending ++ [.left op lhs]
  | .not operand => operand.pending ++ [.not]
  | .conditional cond yes no => no.pending ++ [.answer cond yes]
  | _ => []

/-- The part of a phrase that stands in the innermost of these frames. -/
def tip : Phrase → Phrase
  | .binary _ _ rhs => rhs.tip
  | .not operand => operand.tip
  | .conditional _ _ no => no.tip
  | p => p

/-- The frames of a phrase are closed at any level at which it binds. -/
theorem close_pending {p : Phrase} (fits : p.Fits g) {level : Nat} (le : level ≤ p.rank g)
    (frames : List Frame) :
    g.close level (p.pending ++ frames) p.tip = g.close level frames p := by
  induction p generalizing frames level with
  | name | number | group | step => rfl
  | binary op lhs rhs _ ih =>
    obtain ⟨_, tighter, _, fitsRight⟩ := fits
    have le : level ≤ g.level op := le
    -- the right operand binds more tightly than its operator, so its frames go first
    rw [pending, tip, List.append_assoc, ih fitsRight (by omega)]
    simp [Grammar.close, le]
  | not operand ih =>
    obtain ⟨isUnary, fitsOperand⟩ := fits
    have le : level ≤ g.unary := le
    rw [pending, tip, List.append_assoc, ih fitsOperand (by omega)]
    simp [Grammar.close]
  | conditional cond yes no _ _ ih =>
    obtain ⟨_, _, _, fitsLast⟩ := fits
    obtain rfl : level = 0 := Nat.le_zero.1 le
    rw [pending, tip, List.append_assoc, ih fitsLast (Nat.zero_le _)]
    simp [Grammar.close]

/-- The tokens of a phrase that fits are read up to its last part, where nothing that was
open before is closed. -/
theorem scan {p : Phrase} (fits : p.Fits g) (frames : List Frame)
    (stops : p.rank g < g.unary → Stops g (max 1 (p.rank g)) frames) :
    (p.tokens g.spelling).foldlM g.readToken ⟨frames, none⟩ =
      some ⟨p.pending ++ frames, some p.tip⟩ := by
  induction p generalizing frames with
  | name word =>
    have leaf := readFirst_ofToken (ofToken?_of_isWord fits) frames
    simp [tokens, pending, tip, Grammar.readToken, leaf]
  | number digits =>
    have leaf := readFirst_ofToken (ofToken?_of_isNumber fits) frames
    simp [tokens, pending, tip, Grammar.readToken, leaf]
  | step stepping word =>
    have leaf := readFirst_ofToken (ofToken?_of_isWord fits) frames
    simp [tokens, pending, tip, Grammar.readToken, leaf, readNext_sign]
  | group inner ih =>
    have fits : inner.Fits g := fits
    -- a group is closed by its own sign only, whatever was open before
    have read := ih fits (.group :: frames) fun _ => trivial
    have closes : g.close 0 (inner.pending ++ .group :: frames) inner.tip =
        (.group :: frames, inner) := by
      rw [close_pending fits (Nat.zero_le _)]
      rfl
    have opens : Grammar.readFirst frames "(" = some ⟨.group :: frames, none⟩ := rfl
    simp [tokens, pending, tip, opens, read, Grammar.readToken, readNext_closing closes]
  | not operand ih =>
    obtain ⟨isUnary, fitsOperand⟩ := fits
    have read := ih fitsOperand (.not :: frames) fun low => by omega
    have opens : Grammar.readFirst frames "!" = some ⟨.not :: frames, none⟩ := rfl
    simp [tokens, pending, tip, Grammar.readToken, opens, read]
  | binary op lhs rhs ihl ihr =>
    obtain ⟨least, tighter, fitsLeft, fitsRight⟩ := fits
    have isPos := g.level_pos op
    -- what is open before stops the left operand too, which binds no less tightly
    have here : Stops g (g.level op) frames :=
      (stops (g.level_lt op)).mono (Nat.max_le.2 ⟨isPos, Nat.le_refl _⟩)
    have left := ihl fitsLeft frames fun _ =>
      here.mono (Nat.le_trans least (Nat.le_max_right ..))
    have closes : g.close (g.level op) (lhs.pending ++ frames) lhs.tip = (frames, lhs) := by
      rw [close_pending fitsLeft least, close_of_stops here]
    have right := ihr fitsRight (.left op lhs :: frames) fun _ =>
      Nat.lt_of_lt_of_le tighter (Nat.le_max_right ..)
    simp [tokens, pending, tip, left, Grammar.readToken, readNext_operator, closes, right]
  | conditional cond yes no ihc ihy ihn =>
    obtain ⟨tight, fitsCond, fitsYes, fitsNo⟩ := fits
    have here : Stops g 1 frames := stops (Nat.lt_trans (g.level_pos .add) (g.level_lt .add))
    have asked := ihc fitsCond frames fun _ => here.mono (Nat.le_max_left ..)
    have closes : g.close 1 (cond.pending ++ frames) cond.tip = (frames, cond) := by
      rw [close_pending fitsCond tight, close_of_stops here]
    have answered := ihy fitsYes (.ask cond :: frames) fun _ => trivial
    have answers : g.close 0 (yes.pending ++ .ask cond :: frames) yes.tip =
        (.ask cond :: frames, yes) := by
      rw [close_pending fitsYes (Nat.zero_le _)]
      rfl
    have last := ihn fitsNo (.answer cond yes :: frames) fun _ =>
      Nat.lt_of_lt_of_le Nat.one_pos (Nat.le_max_left ..)
    simp [tokens, pending, tip, asked, Grammar.readToken, readNext_asking, closes, answered,
      readNext_answering answers, last]

/-- A phrase that fits is read from its tokens. -/
theorem read_tokens {p : Phrase} (fits : p.Fits g) : g.read (p.tokens g.spelling) = some p := by
  have read := scan fits [] fun _ => trivial
  have closed := close_pending fits (Nat.zero_le _) []
  rw [Grammar.read, read]
  rw [List.append_nil] at closed ⊢
  simp [Grammar.finish, closed, Grammar.close]

end Phrase

/-! ## What is read fits -/

/-- The tokens that have opened a frame. -/
def Frame.tokens (spelling : BinaryOp → String) : Frame → List String
  | .group => ["("]
  | .not => ["!"]
  | .left op lhs => lhs.tokens spelling ++ [spelling op]
  | .ask cond => cond.tokens spelling ++ ["?"]
  | .answer cond yes => cond.tokens spelling ++ "?" :: (yes.tokens spelling ++ [":"])

/-- The tokens that have opened frames, the innermost of which stands first. -/
def openTokens (spelling : BinaryOp → String) : List Frame → List String
  | [] => []
  | frame :: rest => openTokens spelling rest ++ frame.tokens spelling

/-- Whether the parts in open frames fit, and nothing that the frames before them should
have taken is left open. -/
def SoundFrames (g : Grammar) : List Frame → Prop
  | [] => True
  | .group :: rest | .not :: rest => SoundFrames g rest
  | .left op lhs :: rest =>
    (g.level op ≤ lhs.rank g ∧ lhs.Fits g) ∧ Stops g (g.level op) rest ∧ SoundFrames g rest
  | .ask cond :: rest => (0 < cond.rank g ∧ cond.Fits g) ∧ Stops g 1 rest ∧ SoundFrames g rest
  | .answer cond yes :: rest =>
    (0 < cond.rank g ∧ cond.Fits g ∧ yes.Fits g) ∧ Stops g 1 rest ∧ SoundFrames g rest

/-- Whether a phrase binds tightly enough for the innermost frame. -/
def Room (g : Grammar) (v : Phrase) : List Frame → Prop
  | .left op _ :: _ => g.level op < v.rank g
  | .not :: _ => v.rank g = g.unary
  | _ => True

theorem room_of_unary {v : Phrase} (isUnary : v.rank g = g.unary) (frames : List Frame) :
    Room g v frames := by
  match frames with
  | .left op _ :: _ => exact Nat.lt_of_lt_of_eq (g.level_lt op) isUnary.symm
  | .not :: _ => exact isUnary
  | [] | .group :: _ | .ask _ :: _ | .answer .. :: _ => trivial

theorem room_of_stops {v : Phrase} {frames : List Frame}
    (stops : Stops g (max 1 (v.rank g)) frames) : Room g v frames := by
  match frames with
  | .left op _ :: _ =>
    have isPos := g.level_pos op
    have lower : g.level op < max 1 (v.rank g) := stops
    change g.level op < v.rank g
    omega
  | .not :: _ => exact stops.elim
  | [] | .group :: _ | .ask _ :: _ | .answer .. :: _ => trivial

/-- What closing frames at a level leaves, in terms of the tokens read so far. -/
structure Closed (g : Grammar) (level : Nat) (done : List String) (frames : List Frame)
    (v : Phrase) : Prop where
  sound : SoundFrames g frames
  fits : v.Fits g
  stops : Stops g level frames
  rank : level ≤ v.rank g
  tokens : openTokens g.spelling frames ++ v.tokens g.spelling = done

theorem close_sound {level : Nat} {done : List String} {frames : List Frame} {v : Phrase}
    (sound : SoundFrames g frames) (fits : v.Fits g) (room : Room g v frames)
    (le : level ≤ v.rank g) (tokens : openTokens g.spelling frames ++ v.tokens g.spelling = done) :
    Closed g level done (g.close level frames v).1 (g.close level frames v).2 := by
  induction frames generalizing v with
  | nil => exact ⟨sound, fits, trivial, le, tokens⟩
  | cons frame rest ih =>
    cases frame with
    | group => exact ⟨sound, fits, trivial, le, tokens⟩
    | ask cond => exact ⟨sound, fits, trivial, le, tokens⟩
    | not =>
      have isUnary : v.rank g = g.unary := room
      rw [Grammar.close]
      have le' : level ≤ g.unary := Nat.le_trans le (Nat.le_of_eq isUnary)
      refine ih sound ⟨isUnary, fits⟩ (room_of_unary rfl rest) le' ?_
      simpa [openTokens, Frame.tokens, Phrase.tokens] using tokens
    | left op lhs =>
      obtain ⟨⟨least, fitsLeft⟩, stops, sound'⟩ := sound
      rw [Grammar.close]
      split
      next closes =>
        have isPos := g.level_pos op
        refine ih sound' ⟨least, room, fitsLeft, fits⟩ (room_of_stops ?_) closes ?_
        · exact stops.mono (Nat.le_max_right ..)
        · simpa [openTokens, Frame.tokens, Phrase.tokens] using tokens
      next stays => exact ⟨⟨⟨least, fitsLeft⟩, stops, sound'⟩, fits, Nat.not_le.1 stays, le, tokens⟩
    | answer cond yes =>
      obtain ⟨⟨tight, fitsCond, fitsYes⟩, stops, sound'⟩ := sound
      rw [Grammar.close]
      split
      next closes =>
        have least : level ≤ 0 := Nat.le_of_eq closes
        refine ih sound' ⟨tight, fitsCond, fitsYes, fits⟩ (room_of_stops ?_) least ?_
        · exact stops.mono (Nat.le_max_left ..)
        · simpa [openTokens, Frame.tokens, Phrase.tokens] using tokens
      next stays =>
        exact ⟨⟨⟨tight, fitsCond, fitsYes⟩, stops, sound'⟩, fits, Nat.pos_of_ne_zero stays, le,
          tokens⟩

/-- Whether a reader is one that has read tokens to parts that fit. -/
structure Reader.Sound (g : Grammar) (done : List String) (r : Reader) : Prop where
  sound : SoundFrames g r.frames
  value : ∀ v ∈ r.value, v.Fits g ∧ v.rank g = g.unary
  tokens : openTokens g.spelling r.frames ++
    (r.value.elim [] fun v => v.tokens g.spelling) = done

theorem fits_ofToken? {token : String} {v : Phrase} (leaf : Phrase.ofToken? token = some v) :
    v.Fits g ∧ v.rank g = g.unary ∧ v.tokens g.spelling = [token] := by
  unfold Phrase.ofToken? at leaf
  split at leaf
  next isName =>
    obtain rfl := Option.some.inj leaf
    exact ⟨isName, rfl, rfl⟩
  next =>
    split at leaf
    next number =>
      obtain rfl := Option.some.inj leaf
      exact ⟨number, rfl, rfl⟩
    next => cases leaf

theorem sign_of_ofSign? {token : String} {stepping : Stepping}
    (found : Stepping.ofSign? token = some stepping) : token = stepping.sign := by
  unfold Stepping.ofSign? at found
  split at found
  next isUp =>
    obtain rfl := Option.some.inj found
    exact isUp
  next =>
    split at found
    next isDown =>
      obtain rfl := Option.some.inj found
      exact isDown
    next => cases found

theorem readFirst_sound {r r' : Reader} {done : List String} {token : String}
    (sound : r.Sound g done) (fresh : r.value = none)
    (ok : Grammar.readFirst r.frames token = some r') : r'.Sound g (done ++ [token]) := by
  obtain ⟨frames, _⟩ := r
  subst fresh
  obtain ⟨sound, _, isDone⟩ := sound
  have isDone : openTokens g.spelling frames = done := by simpa using isDone
  unfold Grammar.readFirst at ok
  split at ok
  next opening =>
    obtain rfl := Option.some.inj ok
    exact ⟨sound, by simp, by simp [openTokens, Frame.tokens, isDone, opening]⟩
  next =>
    split at ok
    next negation =>
      obtain rfl := Option.some.inj ok
      exact ⟨sound, by simp, by simp [openTokens, Frame.tokens, isDone, negation]⟩
    next =>
      obtain ⟨v, leaf, rfl⟩ := Option.map_eq_some_iff.1 ok
      obtain ⟨fits, isUnary, isToken⟩ := fits_ofToken? (g := g) leaf
      exact ⟨sound, by simp [fits, isUnary], by simp [isDone, isToken]⟩

namespace Closed

variable {done : List String} {frames : List Frame} {v : Phrase}

theorem group (closed : Closed g 0 done (.group :: frames) v) :
    Reader.Sound g (done ++ [")"]) ⟨frames, some (.group v)⟩ := by
  refine ⟨closed.sound, by simp [Phrase.Fits, Phrase.rank, closed.fits], ?_⟩
  simp [← closed.tokens, openTokens, Frame.tokens, Phrase.tokens]

theorem ask (closed : Closed g 1 done frames v) :
    Reader.Sound g (done ++ ["?"]) ⟨.ask v :: frames, none⟩ := by
  refine ⟨⟨⟨closed.rank, closed.fits⟩, closed.stops, closed.sound⟩, by simp, ?_⟩
  simp [← closed.tokens, openTokens, Frame.tokens]

theorem answer {cond : Phrase} (closed : Closed g 0 done (.ask cond :: frames) v) :
    Reader.Sound g (done ++ [":"]) ⟨.answer cond v :: frames, none⟩ := by
  obtain ⟨⟨tight, fitsCond⟩, stops, sound⟩ := closed.sound
  refine ⟨⟨⟨tight, fitsCond, closed.fits⟩, stops, sound⟩, by simp, ?_⟩
  simp [← closed.tokens, openTokens, Frame.tokens]

theorem operator {op : BinaryOp} (closed : Closed g (g.level op) done frames v) :
    Reader.Sound g (done ++ [g.spelling op]) ⟨.left op v :: frames, none⟩ := by
  refine ⟨⟨⟨closed.rank, closed.fits⟩, closed.stops, closed.sound⟩, by simp, ?_⟩
  simp [← closed.tokens, openTokens, Frame.tokens]

end Closed

/-- A token after a phrase leads to a reader of parts that fit. -/
theorem readNext_sound {frames : List Frame} {v : Phrase} {r' : Reader} {done : List String}
    {token : String} (sound : SoundFrames g frames) (fits : v.Fits g)
    (isUnary : v.rank g = g.unary)
    (isDone : openTokens g.spelling frames ++ v.tokens g.spelling = done)
    (ok : g.readNext frames v token = some r') : r'.Sound g (done ++ [token]) := by
  have closed (level : Nat) (le : level ≤ g.unary) :=
    close_sound sound fits (room_of_unary isUnary frames)
      (Nat.le_trans le (Nat.le_of_eq isUnary.symm)) isDone
  have isPos : 1 ≤ g.unary := Nat.lt_trans (g.level_pos .add) (g.level_lt .add)
  by_cases closing : token = ")"
  · subst closing
    have inner := closed 0 (Nat.zero_le _)
    simp only [Grammar.readNext, if_true] at ok
    split at ok
    next isClosed =>
      obtain rfl := Option.some.inj ok
      rw [isClosed] at inner
      exact inner.group
    next => cases ok
  by_cases asking : token = "?"
  · subst asking
    rw [readNext_asking] at ok
    obtain rfl := Option.some.inj ok
    exact (closed 1 isPos).ask
  by_cases answering : token = ":"
  · subst answering
    have inner := closed 0 (Nat.zero_le _)
    simp only [Grammar.readNext, closing, asking, if_false, if_true] at ok
    split at ok
    next isClosed =>
      obtain rfl := Option.some.inj ok
      rw [isClosed] at inner
      exact inner.answer
    next => cases ok
  simp only [Grammar.readNext, closing, asking, answering, if_false] at ok
  split at ok
  next stepping word isSign =>
    obtain rfl := Option.some.inj ok
    obtain rfl := sign_of_ofSign? isSign
    refine ⟨sound, by simp [Phrase.rank, show (Phrase.step stepping word).Fits g from fits], ?_⟩
    simp [← isDone, Phrase.tokens]
  next => cases ok
  next =>
    obtain ⟨op, isOp, rfl⟩ := Option.map_eq_some_iff.1 ok
    obtain rfl := eq_spelling_of_operator? isOp
    exact (closed (g.level op) (Nat.le_of_lt (g.level_lt op))).operator

theorem readToken_sound {r r' : Reader} {done : List String} {token : String}
    (sound : r.Sound g done) (ok : g.readToken r token = some r') :
    r'.Sound g (done ++ [token]) := by
  rw [Grammar.readToken] at ok
  cases fresh : r.value with
  | none =>
    rw [fresh] at ok
    exact readFirst_sound sound fresh ok
  | some v =>
    rw [fresh] at ok
    obtain ⟨fits, isUnary⟩ := sound.value v fresh
    exact readNext_sound sound.sound fits isUnary (by simpa [fresh] using sound.tokens) ok

/-- Reading goes from sound readers to sound readers. -/
theorem foldlM_readToken_sound {tokens done : List String} {r r' : Reader}
    (sound : r.Sound g done) (ok : tokens.foldlM g.readToken r = some r') :
    r'.Sound g (done ++ tokens) := by
  induction tokens generalizing r done with
  | nil =>
    obtain rfl := Option.some.inj ok
    rwa [List.append_nil]
  | cons token rest ih =>
    rw [List.foldlM_cons] at ok
    obtain ⟨next, first, others⟩ := Option.bind_eq_some_iff.1 ok
    have sound' := ih (readToken_sound sound first) others
    rwa [List.append_assoc] at sound'

theorem finish_sound {r : Reader} {done : List String} {p : Phrase} (sound : r.Sound g done)
    (ok : g.finish r = some p) : p.Fits g ∧ p.tokens g.spelling = done := by
  rw [Grammar.finish] at ok
  cases read : r.value with
  | none =>
    rw [read] at ok
    cases ok
  | some v =>
    rw [read] at ok
    obtain ⟨fits, isUnary⟩ := sound.value v read
    have tokens := sound.tokens
    rw [read] at tokens
    have closed := close_sound sound.sound fits (room_of_unary isUnary _) (Nat.zero_le _) tokens
    simp only at ok
    split at ok
    next isClosed =>
      obtain rfl := Option.some.inj ok
      rw [isClosed] at closed
      exact ⟨closed.fits, by simpa [openTokens] using closed.tokens⟩
    next => cases ok

/-- Tokens are read as a phrase exactly if it fits the grammar and these are its tokens. -/
theorem Grammar.read_eq_some_iff {tokens : List String} {p : Phrase} :
    g.read tokens = some p ↔ p.Fits g ∧ p.tokens g.spelling = tokens := by
  constructor
  · intro read
    obtain ⟨r, ok, finished⟩ := Option.bind_eq_some_iff.1 read
    have start : Reader.Sound g [] ⟨[], none⟩ := ⟨trivial, by simp, rfl⟩
    exact finish_sound (foldlM_readToken_sound start ok) finished
  · rintro ⟨fits, rfl⟩
    exact Phrase.read_tokens fits

/-! ## What can be read -/

/-- The frames that remain open when all is closed that can be. -/
def enclosing : List Frame → List Frame
  | .not :: frames | .left .. :: frames | .answer .. :: frames => enclosing frames
  | frames => frames

theorem enclosing_close (level : Nat) (frames : List Frame) (v : Phrase) :
    enclosing (g.close level frames v).1 = enclosing frames := by
  induction frames generalizing v with
  | nil => rfl
  | cons frame rest ih =>
    cases frame with
    | group | ask => rfl
    | not => exact ih _
    | left op lhs =>
      rw [Grammar.close]
      split
      · exact ih _
      · rfl
    | answer cond yes =>
      rw [Grammar.close]
      split
      · exact ih _
      · rfl

theorem close_zero (frames : List Frame) (v : Phrase) :
    (g.close 0 frames v).1 = enclosing frames := by
  induction frames generalizing v with
  | nil => rfl
  | cons frame rest ih =>
    cases frame with
    | group | ask => rfl
    | not | left | answer => simpa [Grammar.close, enclosing] using ih _

/-- Whether tokens are read as something wherever a phrase can begin. -/
def Readable (g : Grammar) (tokens : List String) : Prop :=
  ∀ frames, ∃ frames' v, tokens.foldlM g.readToken ⟨frames, none⟩ = some ⟨frames', some v⟩ ∧
    enclosing frames' = enclosing frames

theorem readable_word {word : String} (isName : isWord word) : Readable g [word] := by
  intro frames
  have leaf := readFirst_ofToken (ofToken?_of_isWord isName) frames
  exact ⟨frames, .name word, by simp [Grammar.readToken, leaf], rfl⟩

namespace Readable

variable {tokens others : List String}

theorem group (readable : Readable g tokens) : Readable g ("(" :: (tokens ++ [")"])) := by
  intro frames
  obtain ⟨frames', v, read, same⟩ := readable (.group :: frames)
  have closes : g.close 0 frames' v = (.group :: frames, (g.close 0 frames' v).2) :=
    Prod.ext ((close_zero frames' v).trans same) rfl
  have opens : Grammar.readFirst frames "(" = some ⟨.group :: frames, none⟩ := rfl
  exact ⟨frames, .group (g.close 0 frames' v).2,
    by simp [Grammar.readToken, opens, read, readNext_closing closes], rfl⟩

theorem not (readable : Readable g tokens) : Readable g ("!" :: tokens) := by
  intro frames
  obtain ⟨frames', v, read, same⟩ := readable (.not :: frames)
  have opens : Grammar.readFirst frames "!" = some ⟨.not :: frames, none⟩ := rfl
  exact ⟨frames', v, by simp [Grammar.readToken, opens, read], same⟩

theorem operator (first : Readable g tokens) (op : BinaryOp) (second : Readable g others) :
    Readable g (tokens ++ g.spelling op :: others) := by
  intro frames
  obtain ⟨frames', v, read, same⟩ := first frames
  obtain ⟨frames'', w, read', same'⟩ :=
    second (.left op (g.close (g.level op) frames' v).2 :: (g.close (g.level op) frames' v).1)
  refine ⟨frames'', w, by simp [read, Grammar.readToken, readNext_operator, read'], ?_⟩
  rw [same', enclosing, enclosing_close, same]

/-- What can be read where a phrase begins can be read as a whole. -/
theorem exists_read (readable : Readable g tokens) : ∃ p, g.read tokens = some p := by
  obtain ⟨frames, v, read, same⟩ := readable []
  have closes : g.close 0 frames v = ([], (g.close 0 frames v).2) :=
    Prod.ext ((close_zero frames v).trans same) rfl
  refine ⟨(g.close 0 frames v).2, ?_⟩
  rw [Grammar.read, read, Option.bind_some, Grammar.finish]
  simp only
  rw [closes]

end Readable

end Polyscript
