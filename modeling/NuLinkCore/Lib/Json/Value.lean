import NuLinkCore.Lib.Dict
import NuLinkCore.Lib.Json.Literal

/-!
# JSON documents

Values, and how Python's {lit}`json` module writes and reads them.  The reader is a machine
over tokens with a stack of the containers that are still open; of two members with one
name it keeps the last value.

Main results:

- Theorem {lit}`Json.loads_dumps`: reading inverts writing for values whose objects have
  distinct names.
- Theorem {lit}`Json.loads_distinct`: only such values are read.
-/

open Collections

/-- JSON values. -/
inductive Json where
  | null
  | bool (b : Bool)
  | int (n : Int)
  | float (literal : Json.Float)
  | str (text : String)
  | arr (items : List Json)
  | obj (members : List (String × Json))

namespace Json

/-- The value of a literal. -/
def ofWord (word : List Char) : Option Json :=
  if word = ['n', 'u', 'l', 'l'] then some .null
  else if word = ['t', 'r', 'u', 'e'] then some (.bool true)
  else if word = ['f', 'a', 'l', 's', 'e'] then some (.bool false)
  else if h : isFloat word = true then some (.float ⟨word, h⟩)
  else if numberKind word = some false then (Numerals.readInt (String.ofList word)).map .int
  else none

/-! ## Writing -/

/-- What stands before the first and after the last part of a container. -/
def newline (indent : Option Nat) (level : Nat) : List Char :=
  match indent with
  | none => []
  | some width => '\n' :: List.replicate (width * level) ' '

/-- What stands after a comma. -/
def gap (indent : Option Nat) (level : Nat) : List Char :=
  match indent with
  | none => [' ']
  | some _ => newline indent level

mutual

/-- The text of a value at a level of nesting. -/
def write (indent : Option Nat) (level : Nat) : Json → List Char
  | .null => ['n', 'u', 'l', 'l']
  | .bool true => ['t', 'r', 'u', 'e']
  | .bool false => ['f', 'a', 'l', 's', 'e']
  | .int n => intLiteral n
  | .float literal => literal.val
  | .str text => quote text.toList
  | .arr [] => ['[', ']']
  | .arr (item :: items) =>
      '[' :: newline indent (level + 1) ++ write indent (level + 1) item ++
        writeItems indent (level + 1) items ++ newline indent level ++ [']']
  | .obj [] => ['{', '}']
  | .obj ((name, value) :: members) =>
      '{' :: newline indent (level + 1) ++ quote name.toList ++ [':', ' '] ++
        write indent (level + 1) value ++ writeMembers indent (level + 1) members ++
        newline indent level ++ ['}']

def writeItems (indent : Option Nat) (level : Nat) : List Json → List Char
  | [] => []
  | item :: items =>
      ',' :: gap indent level ++ write indent level item ++ writeItems indent level items

def writeMembers (indent : Option Nat) (level : Nat) : List (String × Json) → List Char
  | [] => []
  | (name, value) :: members =>
      ',' :: gap indent level ++ quote name.toList ++ [':', ' '] ++ write indent level value ++
        writeMembers indent level members

end

/-- {lit}`json.dumps`. -/
def dumps (value : Json) (indent : Option Nat) : String := String.ofList (write indent 0 value)

/-! ## Reading -/

/-- A container that is still open, with what it holds so far. -/
inductive Frame where
  | arr (items : List Json)
  | member (members : List (String × Json)) (name : String)

/-- What the next token is. -/
inductive Expect where
  | value
  /-- The first item of a list, or its end. -/
  | firstItem
  /-- The first name of an object, or its end. -/
  | firstName
  | name (members : List (String × Json))
  | colon (members : List (String × Json)) (name : String)
  /-- What may come after a value. -/
  | after (value : Json)

abbrev State : Type := Expect × List Frame

/-- The members of a finished object: the last value of every name. -/
def finish (members : List (String × Json)) : Json := .obj (Dict.ofList members).entries

/-- A token where a value is expected. -/
def stepValue (stack : List Frame) : Token → Option State
  | .str text => some (.after (.str (String.ofList text)), stack)
  | .word word => (ofWord word).map fun value => (.after value, stack)
  | .lbracket => some (.firstItem, stack)
  | .lbrace => some (.firstName, stack)
  | _ => none

/-- One token. -/
def step : State → Token → Option State
  | (.value, stack), token => stepValue stack token
  | (.firstItem, stack), .rbracket => some (.after (.arr []), stack)
  | (.firstItem, stack), token => stepValue (.arr [] :: stack) token
  | (.firstName, stack), .rbrace => some (.after (.obj []), stack)
  | (.firstName, stack), .str name => some (.colon [] (String.ofList name), stack)
  | (.name members, stack), .str name => some (.colon members (String.ofList name), stack)
  | (.colon members name, stack), .colon => some (.value, .member members name :: stack)
  | (.after value, .arr items :: stack), .comma => some (.value, .arr (items ++ [value]) :: stack)
  | (.after value, .arr items :: stack), .rbracket =>
      some (.after (.arr (items ++ [value])), stack)
  | (.after value, .member members name :: stack), .comma =>
      some (.name (members ++ [(name, value)]), stack)
  | (.after value, .member members name :: stack), .rbrace =>
      some (.after (finish (members ++ [(name, value)])), stack)
  | _, _ => none

/-- {lit}`json.loads`, or {lit}`none` where it raises {lit}`JSONDecodeError`. -/
def loads (text : String) : Option Json := do
  let tokens ← lex .plain text.toList
  match ← tokens.foldlM step (.value, []) with
  | (.after value, []) => some value
  | _ => none

/-! ## The tokens of a written value -/

mutual

/-- The tokens of a value. -/
def tokens : Json → List Token
  | .null => [.word ['n', 'u', 'l', 'l']]
  | .bool true => [.word ['t', 'r', 'u', 'e']]
  | .bool false => [.word ['f', 'a', 'l', 's', 'e']]
  | .int n => [.word (intLiteral n)]
  | .float literal => [.word literal.val]
  | .str text => [.str text.toList]
  | .arr [] => [.lbracket, .rbracket]
  | .arr (item :: items) => .lbracket :: tokens item ++ tokensItems items ++ [.rbracket]
  | .obj [] => [.lbrace, .rbrace]
  | .obj ((name, value) :: members) =>
      .lbrace :: .str name.toList :: .colon :: tokens value ++ tokensMembers members ++ [.rbrace]

def tokensItems : List Json → List Token
  | [] => []
  | item :: items => .comma :: tokens item ++ tokensItems items

def tokensMembers : List (String × Json) → List Token
  | [] => []
  | (name, value) :: members =>
      .comma :: .str name.toList :: .colon :: tokens value ++ tokensMembers members

end

mutual

/-- The names of every object in a value are distinct. -/
def Distinct : Json → Prop
  | .arr items => DistinctItems items
  | .obj members => (members.map Prod.fst).Nodup ∧ DistinctMembers members
  | _ => True

def DistinctItems : List Json → Prop
  | [] => True
  | item :: items => Distinct item ∧ DistinctItems items

def DistinctMembers : List (String × Json) → Prop
  | [] => True
  | (_, value) :: members => Distinct value ∧ DistinctMembers members

end

/-! ## Reading a written value -/

theorem ofWord_intLiteral (n : Int) : ofWord (intLiteral n) = some (.int n) := by
  have hkind := numberKind_intLiteral n
  have hname : ∀ name : List Char, numberKind name = none → intLiteral n ≠ name := by
    intro name hnone heq
    rw [heq, hnone] at hkind
    cases hkind
  have hfloat : intLiteral n ∉ floatNames := by
    intro hmem
    have hnames : ∀ name ∈ floatNames, numberKind name = none := by decide
    exact hname _ (hnames _ hmem) rfl
  have hread : Numerals.readInt (String.ofList (intLiteral n)) = some n := by
    rw [intLiteral, String.ofList_toList, Numerals.readInt_printInt]
  rw [ofWord, if_neg (hname _ rfl), if_neg (hname _ rfl), if_neg (hname _ rfl),
    dif_neg (by simp [isFloat, hkind, hfloat]), if_pos hkind, hread]
  rfl

theorem ofWord_float (literal : Float) : ofWord literal.val = some (.float literal) := by
  have hname : ∀ name : List Char, isFloat name = false → literal.val ≠ name := by
    intro name hnot heq
    have hfloat := literal.property
    rw [heq, hnot] at hfloat
    cases hfloat
  rw [ofWord, if_neg (hname _ rfl), if_neg (hname _ rfl), if_neg (hname _ rfl),
    dif_pos literal.property]

/-- The tokens of a value do not close a list. -/
theorem foldlM_firstItem (value : Json) (stack : List Frame) :
    (tokens value).foldlM step (.firstItem, stack) =
      (tokens value).foldlM step (.value, .arr [] :: stack) := by
  cases value with
  | bool b => cases b <;> rfl
  | arr items => cases items <;> rfl
  | obj members =>
      rcases members with _ | ⟨⟨name, value⟩, members⟩ <;> rfl
  | _ => rfl

mutual

/-- The tokens of a value are read as the value. -/
theorem foldlM_tokens : (value : Json) → value.Distinct → (stack : List Frame) →
    (tokens value).foldlM step (.value, stack) = some (.after value, stack)
  | .null, _, _ => rfl
  | .bool true, _, _ => rfl
  | .bool false, _, _ => rfl
  | .int n, _, stack => by
      simp [tokens, step, stepValue, ofWord_intLiteral]
  | .float literal, _, stack => by
      simp [tokens, step, stepValue, ofWord_float]
  | .str text, _, stack => by
      simp [tokens, step, stepValue]
  | .arr [], _, _ => rfl
  | .arr (item :: items), h, stack => by
      rw [Distinct, DistinctItems] at h
      have hitem := foldlM_tokens item h.1 (.arr [] :: stack)
      have hitems := foldlM_tokensItems items h.2 [] item stack
      simp only [tokens, List.cons_append, List.append_assoc, List.foldlM_cons, step, stepValue,
        Option.bind_eq_bind, Option.bind_some, List.foldlM_append, foldlM_firstItem, hitem] at *
      exact hitems
  | .obj [], _, _ => rfl
  | .obj ((name, value) :: members), h, stack => by
      rw [Distinct, DistinctMembers] at h
      have hvalue := foldlM_tokens value h.2.1 (.member [] name :: stack)
      have hmembers := foldlM_tokensMembers members h.2.2 [] name value stack
      have hfinish : finish ((name, value) :: members) = .obj ((name, value) :: members) := by
        rw [finish, Dict.entries_ofList h.1]
      simp only [tokens, List.cons_append, List.append_assoc, List.foldlM_cons, step, stepValue,
        Option.bind_eq_bind, Option.bind_some, List.foldlM_append, String.ofList_toList, hvalue,
        List.nil_append, hfinish] at *
      exact hmembers

theorem foldlM_tokensItems : (items : List Json) → DistinctItems items →
    (done : List Json) → (value : Json) → (stack : List Frame) →
    (tokensItems items ++ [Token.rbracket]).foldlM step (.after value, .arr done :: stack) =
      some (.after (.arr (done ++ value :: items)), stack)
  | [], _, done, value, stack => by
      simp [tokensItems, step]
  | item :: items, h, done, value, stack => by
      rw [DistinctItems] at h
      have hitem := foldlM_tokens item h.1 (.arr (done ++ [value]) :: stack)
      have hitems := foldlM_tokensItems items h.2 (done ++ [value]) item stack
      simp only [tokensItems, List.cons_append, List.append_assoc, List.foldlM_cons, step,
        Option.bind_eq_bind, Option.bind_some, List.foldlM_append, hitem, List.nil_append] at *
      exact hitems

theorem foldlM_tokensMembers : (members : List (String × Json)) → DistinctMembers members →
    (done : List (String × Json)) → (name : String) → (value : Json) → (stack : List Frame) →
    (tokensMembers members ++ [Token.rbrace]).foldlM step (.after value, .member done name :: stack) =
      some (.after (finish (done ++ (name, value) :: members)), stack)
  | [], _, done, name, value, stack => by
      simp [tokensMembers, step]
  | (name', value') :: members, h, done, name, value, stack => by
      rw [DistinctMembers] at h
      have hvalue := foldlM_tokens value' h.1 (.member (done ++ [(name, value)]) name' :: stack)
      have hmembers := foldlM_tokensMembers members h.2 (done ++ [(name, value)]) name' value' stack
      simp only [tokensMembers, List.cons_append, List.append_assoc, List.foldlM_cons, step,
        Option.bind_eq_bind, Option.bind_some, List.foldlM_append, String.ofList_toList, hvalue,
        List.nil_append] at *
      exact hmembers

end

/-! ## Lexing a written value -/

theorem lex_punctuation {c : Char} {token : Token} (h : punctuation c = some token)
    (rest : List Char) : lex .plain (c :: rest) = (lex .plain rest).map (token :: ·) := by
  unfold punctuation at h
  split_ifs at h with h₁ h₂ h₃ h₄ h₅ h₆
  all_goals cases h
  · rw [h₁]
    rfl
  · rw [h₂]
    rfl
  · rw [h₃]
    rfl
  · rw [h₄]
    rfl
  · rw [h₅]
    rfl
  · rw [h₆]
    rfl

theorem isSpace_of_mem_newline {indent : Option Nat} {level : Nat} {c : Char}
    (h : c ∈ newline indent level) : isSpace c = true := by
  cases indent with
  | none => cases h
  | some width =>
      rcases List.mem_cons.mp h with rfl | h
      · rfl
      · rw [List.eq_of_mem_replicate h]
        rfl

theorem isSpace_of_mem_gap {indent : Option Nat} {level : Nat} {c : Char}
    (h : c ∈ gap indent level) : isSpace c = true := by
  cases indent with
  | none =>
      rw [List.mem_singleton.mp h]
      rfl
  | some width =>
      have hline : c ∈ newline (some width) level := h
      exact isSpace_of_mem_newline hline

@[simp]
theorem lex_newline (indent : Option Nat) (level : Nat) (rest : List Char) :
    lex .plain (newline indent level ++ rest) = lex .plain rest :=
  lex_spaces (fun _ h => isSpace_of_mem_newline h) rest

@[simp]
theorem lex_gap (indent : Option Nat) (level : Nat) (rest : List Char) :
    lex .plain (gap indent level ++ rest) = lex .plain rest :=
  lex_spaces (fun _ h => isSpace_of_mem_gap h) rest

/-- A literal ends before the end of a container. -/
theorem delimited_newline {indent : Option Nat} {level : Nat} {c : Char}
    (h : isDelimiter c = true) (rest : List Char) :
    Delimited (newline indent level ++ c :: rest) := by
  cases indent with
  | none => exact delimited_cons h rest
  | some width => exact delimited_cons rfl _

theorem delimited_writeItems {indent : Option Nat} {level : Nat} (items : List Json)
    {rest : List Char} (h : Delimited rest) :
    Delimited (writeItems indent level items ++ rest) := by
  cases items with
  | nil => exact h
  | cons item items =>
      rw [writeItems]
      exact delimited_cons rfl _

theorem delimited_writeMembers {indent : Option Nat} {level : Nat}
    (members : List (String × Json)) {rest : List Char} (h : Delimited rest) :
    Delimited (writeMembers indent level members ++ rest) := by
  cases members with
  | nil => exact h
  | cons member members =>
      rw [writeMembers]
      exact delimited_cons rfl _

theorem Word.lex {word rest : List Char} (h : Word word) (hrest : Delimited rest) :
    lex .plain (word ++ rest) = (lex .plain rest).map ([.word word] ++ ·) :=
  lex_word h.ne_nil h.not_delimiter hrest

@[simp]
theorem lex_blank (rest : List Char) : lex .plain (' ' :: rest) = lex .plain rest := rfl

theorem word_null : Word ['n', 'u', 'l', 'l'] :=
  Word.of_all (by decide) (by decide)

theorem word_true : Word ['t', 'r', 'u', 'e'] :=
  Word.of_all (by decide) (by decide)

theorem word_false : Word ['f', 'a', 'l', 's', 'e'] :=
  Word.of_all (by decide) (by decide)

mutual

/-- A written value is lexed as its tokens. -/
theorem lex_write (indent : Option Nat) : (value : Json) → (level : Nat) → (rest : List Char) →
    Delimited rest →
    lex .plain (write indent level value ++ rest) = (lex .plain rest).map (tokens value ++ ·)
  | .null, level, rest, h => word_null.lex h
  | .bool true, level, rest, h => word_true.lex h
  | .bool false, level, rest, h => word_false.lex h
  | .int n, level, rest, h => Word.lex (word_of_numberKind (numberKind_intLiteral n)) h
  | .float literal, level, rest, h => Word.lex (word_float literal) h
  | .str text, level, rest, h => lex_quote text.toList rest
  | .arr [], level, rest, h => by
      simp [write, tokens, lex_punctuation (c := '[') rfl, lex_punctuation (c := ']') rfl,
        Function.comp_def]
  | .arr (item :: items), level, rest, h => by
      have hclose : Delimited (newline indent level ++ ']' :: rest) := delimited_newline rfl rest
      have hitems := lex_writeItems indent items (level + 1) (newline indent level ++ ']' :: rest)
        hclose
      have hitem := lex_write indent item (level + 1)
        (writeItems indent (level + 1) items ++ (newline indent level ++ ']' :: rest))
        (delimited_writeItems items hclose)
      simp only [write, List.cons_append, List.append_assoc, List.nil_append, tokens,
        lex_punctuation (c := '[') rfl, lex_newline, hitem, hitems,
        lex_punctuation (c := ']') rfl, Option.map_map]
      rfl
  | .obj [], level, rest, h => by
      simp [write, tokens, lex_punctuation (c := '{') rfl, lex_punctuation (c := '}') rfl,
        Function.comp_def]
  | .obj ((name, value) :: members), level, rest, h => by
      have hclose : Delimited (newline indent level ++ '}' :: rest) := delimited_newline rfl rest
      have hmembers := lex_writeMembers indent members (level + 1)
        (newline indent level ++ '}' :: rest) hclose
      have hvalue := lex_write indent value (level + 1)
        (writeMembers indent (level + 1) members ++ (newline indent level ++ '}' :: rest))
        (delimited_writeMembers members hclose)
      simp only [write, List.cons_append, List.append_assoc, List.nil_append, tokens,
        lex_punctuation (c := '{') rfl, lex_newline, lex_quote, lex_punctuation (c := ':') rfl,
        lex_blank, hvalue, hmembers, lex_punctuation (c := '}') rfl, Option.map_map]
      rfl

theorem lex_writeItems (indent : Option Nat) : (items : List Json) → (level : Nat) →
    (rest : List Char) → Delimited rest →
    lex .plain (writeItems indent level items ++ rest) =
      (lex .plain rest).map (tokensItems items ++ ·)
  | [], level, rest, h => by
      simp [writeItems, tokensItems]
  | item :: items, level, rest, h => by
      have hitems := lex_writeItems indent items level rest h
      have hitem := lex_write indent item level (writeItems indent level items ++ rest)
        (delimited_writeItems items h)
      simp only [writeItems, List.cons_append, List.append_assoc, tokensItems,
        lex_punctuation (c := ',') rfl, lex_gap, hitem, hitems, Option.map_map]
      rfl

theorem lex_writeMembers (indent : Option Nat) : (members : List (String × Json)) →
    (level : Nat) → (rest : List Char) → Delimited rest →
    lex .plain (writeMembers indent level members ++ rest) =
      (lex .plain rest).map (tokensMembers members ++ ·)
  | [], level, rest, h => by
      simp [writeMembers, tokensMembers]
  | (name, value) :: members, level, rest, h => by
      have hmembers := lex_writeMembers indent members level rest h
      have hvalue := lex_write indent value level (writeMembers indent level members ++ rest)
        (delimited_writeMembers members h)
      simp only [writeMembers, List.cons_append, List.append_assoc, List.nil_append,
        tokensMembers, lex_punctuation (c := ',') rfl, lex_gap, lex_quote,
        lex_punctuation (c := ':') rfl, lex_blank, hvalue, hmembers, Option.map_map]
      rfl

end

/-- Reading inverts writing. -/
theorem loads_dumps {value : Json} (h : value.Distinct) (indent : Option Nat) :
    loads (dumps value indent) = some value := by
  have hlex := lex_write indent value 0 [] delimited_nil
  rw [List.append_nil] at hlex
  have hnil : lex .plain [] = some [] := rfl
  rw [hnil, Option.map_some, List.append_nil] at hlex
  rw [loads, dumps, String.toList_ofList, hlex]
  simp only [Option.bind_eq_bind, Option.bind_some, foldlM_tokens value h []]

/-! ## Values that are read -/

theorem distinctItems_append {items items' : List Json} :
    DistinctItems (items ++ items') ↔ DistinctItems items ∧ DistinctItems items' := by
  induction items with
  | nil => simp [DistinctItems]
  | cons item items ih => rw [List.cons_append, DistinctItems, DistinctItems, ih, and_assoc]

theorem distinctMembers_iff {members : List (String × Json)} :
    DistinctMembers members ↔ ∀ member ∈ members, member.2.Distinct := by
  induction members with
  | nil => simp [DistinctMembers]
  | cons member members ih => rw [DistinctMembers, ih, List.forall_mem_cons]

/-- What a container holds so far has distinct names. -/
def Frame.Distinct : Frame → Prop
  | .arr items => DistinctItems items
  | .member members _ => DistinctMembers members

def Expect.Distinct : Expect → Prop
  | .name members => DistinctMembers members
  | .colon members _ => DistinctMembers members
  | .after read => read.Distinct
  | _ => True

def State.Distinct (state : State) : Prop :=
  state.1.Distinct ∧ ∀ frame ∈ state.2, frame.Distinct

theorem finish_distinct {members : List (String × Json)} (h : DistinctMembers members) :
    (finish members).Distinct := by
  rw [finish, Distinct]
  refine ⟨(Dict.ofList members).nodup_keys, ?_⟩
  rw [distinctMembers_iff] at h ⊢
  intro member hmember
  exact h member (Dict.mem_of_get?_ofList (Dict.mem_entries_iff.mp hmember))

theorem ofWord_distinct {word : List Char} {value : Json} (h : ofWord word = some value) :
    value.Distinct := by
  unfold ofWord at h
  split_ifs at h
  · cases h
    trivial
  · cases h
    trivial
  · cases h
    trivial
  · cases h
    trivial
  · rcases Option.map_eq_some_iff.mp h with ⟨n, -, rfl⟩
    trivial

theorem stepValue_distinct {stack : List Frame} {token : Token} {next : State}
    (h : stepValue stack token = some next) (hstack : ∀ frame ∈ stack, frame.Distinct) :
    next.Distinct := by
  cases token with
  | word word =>
      rcases Option.map_eq_some_iff.mp h with ⟨value, hvalue, rfl⟩
      exact ⟨ofWord_distinct hvalue, hstack⟩
  | str text =>
      cases h
      exact ⟨trivial, hstack⟩
  | lbracket =>
      cases h
      exact ⟨trivial, hstack⟩
  | lbrace =>
      cases h
      exact ⟨trivial, hstack⟩
  | _ => cases h

theorem step_firstItem {stack : List Frame} {token : Token} (h : token ≠ .rbracket) :
    step (.firstItem, stack) token = stepValue (.arr [] :: stack) token := by
  cases token with
  | rbracket => exact absurd rfl h
  | _ => rfl

/-- A step of the reader keeps the names distinct. -/
theorem step_distinct {state next : State} {token : Token} (h : step state token = some next)
    (hstate : state.Distinct) : next.Distinct := by
  rcases state with ⟨expect, stack⟩
  rcases hstate with ⟨hexpect, hstack⟩
  have hopen : ∀ {frame : Frame}, frame.Distinct → ∀ frame' ∈ frame :: stack, frame'.Distinct :=
    fun hframe => List.forall_mem_cons.mpr ⟨hframe, hstack⟩
  cases expect with
  | value => exact stepValue_distinct h hstack
  | firstItem =>
      by_cases hclose : token = .rbracket
      · subst hclose
        cases h
        exact ⟨trivial, hstack⟩
      · have hempty : (Frame.arr []).Distinct := trivial
        rw [step_firstItem hclose] at h
        exact stepValue_distinct h (hopen hempty)
  | firstName =>
      cases token with
      | rbrace =>
          cases h
          exact ⟨⟨List.nodup_nil, trivial⟩, hstack⟩
      | str name =>
          cases h
          exact ⟨trivial, hstack⟩
      | _ => cases h
  | name members =>
      cases token with
      | str name =>
          cases h
          exact ⟨hexpect, hstack⟩
      | _ => cases h
  | colon members name =>
      cases token with
      | colon =>
          cases h
          exact ⟨trivial, hopen hexpect⟩
      | _ => cases h
  | after value =>
      cases stack with
      | nil => cases h
      | cons frame stack =>
          rcases List.forall_mem_cons.mp hstack with ⟨hframe, hrest⟩
          cases frame with
          | arr items =>
              have hitems : DistinctItems (items ++ [value]) :=
                distinctItems_append.mpr ⟨hframe, hexpect, trivial⟩
              cases token with
              | comma =>
                  cases h
                  exact ⟨trivial, List.forall_mem_cons.mpr ⟨hitems, hrest⟩⟩
              | rbracket =>
                  cases h
                  exact ⟨hitems, hrest⟩
              | _ => cases h
          | member members name =>
              have hmembers : DistinctMembers (members ++ [(name, value)]) := by
                rw [distinctMembers_iff]
                intro member hmember
                rcases List.mem_append.mp hmember with hold | hnew
                · exact distinctMembers_iff.mp hframe member hold
                · rw [List.mem_singleton.mp hnew]
                  exact hexpect
              cases token with
              | comma =>
                  cases h
                  exact ⟨hmembers, hrest⟩
              | rbrace =>
                  cases h
                  exact ⟨finish_distinct hmembers, hrest⟩
              | _ => cases h

/-- What is read has distinct names. -/
theorem loads_distinct {text : String} {value : Json} (h : loads text = some value) :
    value.Distinct := by
  have hrun : ∀ (tokens : List Token) (state next : State),
      tokens.foldlM step state = some next → state.Distinct → next.Distinct := by
    intro tokens
    induction tokens with
    | nil =>
        intro state next hnext hstate
        cases hnext
        exact hstate
    | cons token tokens ih =>
        intro state next hnext hstate
        rw [List.foldlM_cons] at hnext
        rcases Option.bind_eq_some_iff.mp hnext with ⟨middle, hmiddle, hrest⟩
        exact ih middle next hrest (step_distinct hmiddle hstate)
  rw [loads] at h
  rcases Option.bind_eq_some_iff.mp h with ⟨tokens, -, h⟩
  rcases Option.bind_eq_some_iff.mp h with ⟨⟨expect, stack⟩, hend, h⟩
  have hdistinct := hrun tokens _ _ hend ⟨trivial, by simp⟩
  cases expect with
  | after read =>
      cases stack with
      | nil =>
          cases h
          exact hdistinct.1
      | cons frame stack => cases h
  | _ => cases h

end Json
