import Mathlib.Data.List.Infix

/-!
Documents of XML 1.0, as a relation between a text and the content it denotes: names,
tags with attributes, character data, references, CDATA sections, comments and processing
instructions. A text has neither an XML declaration nor a document type declaration, so
its encoding is UTF-8 and the declared entities are the five predefined ones.
-/

namespace NatClient.XmlGrammar

/-! Texts as bytes, one `Char` for each byte. -/
section Bytes

def utf8 (text : List Char) : List Char :=
  text.flatMap fun c => (String.utf8EncodeChar c).map fun byte => Char.ofNat byte.toNat

def size : List Char → Nat
  | [] => 0
  | c :: text => c.utf8Size + size text

@[simp] theorem size_nil : size [] = 0 := rfl

@[simp] theorem size_cons (c : Char) (text : List Char) :
    size (c :: text) = c.utf8Size + size text := rfl

@[simp] theorem size_append (first second : List Char) :
    size (first ++ second) = size first + size second := by
  induction first with
  | nil => exact (Nat.zero_add _).symm
  | cons c first ih => rw [List.cons_append, size_cons, size_cons, ih, Nat.add_assoc]

theorem utf8_append (first second : List Char) :
    utf8 (first ++ second) = utf8 first ++ utf8 second :=
  List.flatMap_append

theorem utf8_length (text : List Char) : (utf8 text).length = size text := by
  induction text with
  | nil => rfl
  | cons c text ih =>
      have first : ((String.utf8EncodeChar c).map fun byte => Char.ofNat byte.toNat).length =
          c.utf8Size := by
        rw [List.length_map, String.length_utf8EncodeChar]
      rw [size_cons, ← ih, ← first, ← List.length_append]
      rfl

theorem size_eq_zero {text : List Char} : size text = 0 ↔ text = [] := by
  cases text with
  | nil => simp
  | cons c text =>
      have positive := Char.utf8Size_pos c
      simp only [size_cons, reduceCtorEq, iff_false]
      omega

theorem utf8_eq_nil {text : List Char} : utf8 text = [] ↔ text = [] := by
  rw [← List.length_eq_zero_iff, utf8_length, size_eq_zero]

theorem utf8Size_low {c : Char} (low : c.toNat < 128) : c.utf8Size = 1 := by
  rw [Char.utf8Size_eq_one_iff, UInt32.le_iff_toNat_le]
  exact Nat.le_of_lt_succ low

theorem utf8_ascii {text : List Char} (ascii : ∀ c ∈ text, c.toNat < 128) : utf8 text = text := by
  induction text with
  | nil => rfl
  | cons c text ih =>
      obtain ⟨low, ascii⟩ := List.forall_mem_cons.mp ascii
      have byte : (String.utf8EncodeChar c).map (fun byte => Char.ofNat byte.toNat) = [c] := by
        have value : c.val.toUInt8.toNat = c.toNat :=
          Nat.mod_eq_of_lt (Nat.lt_trans low (by decide))
        rw [String.utf8EncodeChar_eq_singleton (utf8Size_low low),
          List.map_singleton, value, Char.ofNat_toNat]
      rw [utf8, List.flatMap_cons, byte, List.singleton_append]
      exact congrArg (c :: ·) (ih ascii)

theorem encode_high {c : Char} (high : 128 ≤ c.toNat) :
    ∃ byte ∈ String.utf8EncodeChar c, 128 ≤ byte.toNat := by
  have value : c.val.toNat = c.toNat := rfl
  have range : c.toNat < 1114112 := by
    rcases c.valid with low | ⟨_, high⟩ <;> omega
  simp only [String.utf8EncodeChar, value]
  rw [if_neg (by omega)]
  by_cases two : c.toNat ≤ 0x7ff
  · rw [if_pos two]
    refine ⟨_, List.mem_cons_self, ?_⟩
    rw [UInt8.toNat_ofNat']
    omega
  · rw [if_neg two]
    split
    all_goals
      refine ⟨_, List.mem_cons_self, ?_⟩
      rw [UInt8.toNat_ofNat']
      omega

theorem utf8_low {run : List Char} (low : ∀ byte ∈ utf8 run, byte.toNat < 128) :
    utf8 run = run := by
  refine utf8_ascii fun c member => ?_
  by_contra high
  obtain ⟨byte, among, big⟩ := encode_high (Nat.le_of_not_lt high)
  have encoded : Char.ofNat byte.toNat ∈ utf8 run :=
    List.mem_flatMap.mpr ⟨c, member, List.mem_map.mpr ⟨byte, among, rfl⟩⟩
  have small := low _ encoded
  have valid : byte.toNat.isValidChar := Or.inl (Nat.lt_trans byte.toNat_lt (by decide))
  have value : (Char.ofNat byte.toNat).toNat = byte.toNat := by
    rw [Char.ofNat, dif_pos valid]
    rfl
  omega

end Bytes

/-! Characters, names and character data. -/
section Lexical

def xmlChar (c : Char) : Bool :=
  c = '\t' || c = '\n' || c = '\r' || (0x20 ≤ c.toNat && c.toNat ≠ 0xfffe && c.toNat ≠ 0xffff)

def white (c : Char) : Bool := c = ' ' || c = '\t' || c = '\r' || c = '\n'

def between (low high : Nat) (c : Char) : Bool := low ≤ c.toNat && c.toNat ≤ high

def nameStart (c : Char) : Bool :=
  c = ':' || c = '_' || c.isAlpha || between 0xc0 0xd6 c || between 0xd8
    0xf6 c || between 0xf8 0x2ff c ||
    between 0x370 0x37d c || between 0x37f 0x1fff c || between 0x200c 0x200d
      c || between 0x2070 0x218f c ||
    between 0x2c00 0x2fef c || between 0x3001 0xd7ff c || between 0xf900 0xfdcf c ||
    between 0xfdf0 0xfffd c || between 0x10000 0xeffff c

def nameChar (c : Char) : Bool :=
  nameStart c || c = '-' || c = '.' || c.isDigit || c.toNat = 0xb7 || between 0x300 0x36f c ||
    between 0x203f 0x2040 c

def Name : List Char → Prop
  | [] => False
  | first :: rest => nameStart first = true ∧ ∀ c ∈ rest, nameChar c = true

def White (text : List Char) : Prop := ∀ c ∈ text, white c = true

def cdataEnd : List Char := [']', ']', '>']

def CharData (run : List Char) : Prop :=
  (∀ c ∈ run, xmlChar c = true ∧ c ≠ '<' ∧ c ≠ '&') ∧ ¬ cdataEnd <:+: run

end Lexical

/-! References, and what stands for nothing or for text other than itself. -/
section Hidden

def predefined : List (List Char × Char) :=
  [("lt".toList, '<'), ("gt".toList, '>'), ("amp".toList, '&'),
    ("apos".toList, '\''), ("quot".toList, '"')]

def hexValue (c : Char) : Option Nat :=
  if c.isDigit then some (c.toNat - '0'.toNat)
  else if between 0x61 0x66 c then some (c.toNat - 'a'.toNat + 10)
  else if between 0x41 0x46 c then some (c.toNat - 'A'.toNat + 10)
  else none

def hexNumber (digits : List Char) : Nat :=
  digits.foldl (fun number digit => 16 * number + (hexValue digit).getD 0) 0

inductive Reference : List Char → Char → Prop
  | entity {name : List Char} {c : Char} (known : (name, c) ∈ predefined) :
      Reference ('&' :: (name ++ [';'])) c
  | decimal {digits : List Char} {c : Char} (present : digits ≠ [])
      (all : ∀ d ∈ digits, d.isDigit = true)
      (number : Nat.ofDigitChars 10 digits 0 = c.toNat) (legal : xmlChar c = true) :
      Reference ('&' :: '#' :: (digits ++ [';'])) c
  | hexadecimal {digits : List Char} {c : Char} (present : digits ≠ [])
      (all : ∀ d ∈ digits, hexValue d ≠ none) (number : hexNumber digits = c.toNat)
      (legal : xmlChar c = true) : Reference ('&' :: '#' :: 'x' :: (digits ++ [';'])) c

def Comment (text : List Char) : Prop :=
  ∃ inner, (∀ c ∈ inner, xmlChar c = true) ∧ ¬ ['-', '-'] <:+: inner ∧ inner.getLast? ≠ some '-' ∧
    text = '<' :: '!' :: '-' :: '-' :: (inner ++ ['-', '-', '>'])

def Instruction (text : List Char) : Prop :=
  ∃ target inner, Name target ∧ target.map Char.toLower ≠ "xml".toList ∧
    (∀ c, inner.head? = some c → white c = true) ∧ (∀ c ∈ inner, xmlChar c = true) ∧
      ¬ ['?', '>'] <:+: inner ∧ text = '<' :: '?' :: (target ++ (inner ++ ['?', '>']))

def cdataStart : List Char := ['<', '!', '[', 'C', 'D', 'A', 'T', 'A', '[']

/-- Pieces of content that are no elements, with the text they stand for. -/
inductive Hidden : List Char → List Char → Prop
  | reference {text : List Char} {c : Char} (refers : Reference text c) : Hidden text [c]
  | cdata {run : List Char} (legal : ∀ c ∈ run, xmlChar c = true) (open_ : ¬ cdataEnd <:+: run) :
      Hidden (cdataStart ++ (run ++ cdataEnd)) run
  | comment {text : List Char} (comment : Comment text) : Hidden text []
  | instruction {text : List Char} (instruction : Instruction text) : Hidden text []

end Hidden

/-! Tags. -/
section Tags

inductive AttText (quote : Char) : List Char → Prop
  | nil : AttText quote []
  | char {c : Char} {rest : List Char} (legal : xmlChar c = true)
      (literal : c ≠ '<' ∧ c ≠ '&' ∧ c ≠ quote)
      (later : AttText quote rest) : AttText quote (c :: rest)
  | reference {text rest : List Char} {c : Char} (refers : Reference text c)
      (later : AttText quote rest) : AttText quote (text ++ rest)

def AttValue (text : List Char) : Prop :=
  ∃ quote inner, (quote = '"' ∨ quote = '\'') ∧ AttText quote inner ∧
    text = quote :: (inner ++ [quote])

/-- Attributes with different names, and white space behind them. -/
inductive Attributes : List (List Char) → List Char → Prop
  | nil {space : List Char} (space_white : White space) : Attributes [] space
  | cons {space name before after value rest : List Char}
      {names : List (List Char)} (space_white : White space)
      (apart : space ≠ []) (named : Name name)
        (before_white : White before) (after_white : White after)
      (valued : AttValue value) (fresh : name ∉ names) (later : Attributes names rest) :
      Attributes (name :: names)
        (space ++ (name ++ (before ++ ('=' :: (after ++ (value ++ rest))))))

def StartTag (text name : List Char) : Prop :=
  Name name ∧ ∃ names attributes, Attributes names attributes ∧
    text = '<' :: (name ++ (attributes ++ ['>']))

def EmptyTag (text name : List Char) : Prop :=
  Name name ∧ ∃ names attributes, Attributes names attributes ∧
    text = '<' :: (name ++ (attributes ++ ['/', '>']))

def EndTag (text name : List Char) : Prop :=
  ∃ space, White space ∧ text = '<' :: '/' :: (name ++ (space ++ ['>']))

end Tags

/-! Content, and the documents that denote it. -/
section Documents

/-- Text up to the end, or up to an element with its content and what follows it. -/
inductive Content where
  | chars (run : List Char)
  | element (run name : List Char) (inner rest : Content)
  deriving DecidableEq

def Content.prepend (text : List Char) : Content → Content
  | .chars run => .chars (text ++ run)
  | .element run name inner rest => .element (text ++ run) name inner rest

inductive Parses : List Char → Content → Prop
  | chars {run : List Char} (data : CharData run) : Parses run (.chars run)
  | element {run start inner stop rest name : List Char}
      {content after : Content} (data : CharData run)
      (starts : StartTag start name) (parsed : Parses inner content) (stops : EndTag stop name)
      (later : Parses rest after) :
      Parses (run ++ (start ++ (inner ++ (stop ++ rest)))) (.element run name content after)
  | empty {run tag rest name : List Char} {after : Content}
      (data : CharData run) (tagged : EmptyTag tag name)
      (later : Parses rest after) :
        Parses (run ++ (tag ++ rest)) (.element run name (.chars []) after)
  | hidden {run text rest stands : List Char} {after : Content} (data : CharData run)
      (hidden : Hidden text stands) (later : Parses rest after) :
      Parses (run ++ (text ++ rest)) (after.prepend (run ++ stands))

inductive Misc : List Char → Prop
  | nil : Misc []
  | space {c : Char} {rest : List Char} (space_white : white c = true) (later : Misc rest) :
      Misc (c :: rest)
  | comment {text rest : List Char} (comment : Comment text) (later : Misc rest) :
      Misc (text ++ rest)
  | instruction {text rest : List Char} (instruction : Instruction text) (later : Misc rest) :
      Misc (text ++ rest)

inductive Root : List Char → Content → Prop
  | element {start inner stop name : List Char} {content : Content} (starts : StartTag start name)
      (parsed : Parses inner content) (stops : EndTag stop name) :
      Root (start ++ (inner ++ stop)) (.element [] name content (.chars []))
  | empty {tag name : List Char} (tagged : EmptyTag tag name) :
      Root tag (.element [] name (.chars []) (.chars []))

def Document (text : List Char) (root : Content) : Prop :=
  ∃ before body after, Misc before ∧ Root body root ∧ Misc after ∧ text = before ++ (body ++ after)

/-- Line ends are normalised before a text is parsed. -/
def lineEnds : List Char → List Char
  | '\r' :: '\n' :: rest => '\n' :: lineEnds rest
  | '\r' :: rest => '\n' :: lineEnds rest
  | c :: rest => c :: lineEnds rest
  | [] => []

/-- The bytes are a well-formed document with this root. -/
def Denotes (bytes : List Char) (root : Content) : Prop :=
  ∃ text, utf8 text = bytes ∧ Document (lineEnds text) root

def Content.encode : Content → Content
  | .chars run => .chars (utf8 run)
  | .element run name inner rest => .element (utf8 run) (utf8 name) inner.encode rest.encode

end Documents

/-! No text is shorter than the plain one for what it denotes, and one that is as short
has every character stand for itself. -/
section Weights

def Inert (run : List Char) : Prop := CharData run ∧ '\r' ∉ run

def Content.Literal : Content → Prop
  | .chars run => Inert run
  | .element run _ inner rest => Inert run ∧ inner.Literal ∧ rest.Literal

def Content.weight : Content → Nat
  | .chars run => size run
  | .element run name inner rest =>
      size run + (if inner = .chars [] then size name + 3
        else 2 * size name + 5 + inner.weight) + rest.weight

theorem weight_prepend (text : List Char) (content : Content) :
    (content.prepend text).weight = size text + content.weight := by
  cases content with
  | chars run => simp [Content.prepend, Content.weight]
  | element run name inner rest =>
      simp only [Content.prepend, Content.weight, size_append, Nat.add_assoc]

theorem size_length (text : List Char) : text.length ≤ size text := by
  induction text with
  | nil => exact Nat.le_refl 0
  | cons c text ih =>
      have positive := Char.utf8Size_pos c
      rw [List.length_cons, size_cons]
      omega

theorem reference_size {text : List Char} {c : Char} (refers : Reference text c) :
    c.utf8Size < size text := by
  have most := Char.utf8Size_le_four c
  cases refers with
  | entity known =>
      simp only [predefined, List.mem_cons, Prod.mk.injEq, List.not_mem_nil, or_false] at known
      rcases known with ⟨rfl, rfl⟩ | ⟨rfl, rfl⟩ | ⟨rfl, rfl⟩ | ⟨rfl, rfl⟩ | ⟨rfl, rfl⟩ <;> decide
  | @decimal digits _ present all number legal =>
      have bytes := size_length ('&' :: '#' :: (digits ++ [';']))
      simp only [List.length_cons, List.length_append, List.length_nil] at bytes
      cases digits with
      | nil => exact absurd rfl present
      | cons digit more =>
          cases more with
          -- With one digit it has four bytes, and its character is below 10.
          | nil =>
              have range : 48 ≤ digit.toNat ∧ digit.toNat ≤ 57 := by
                simpa [Char.isDigit, UInt32.le_iff_toNat_le] using all digit List.mem_cons_self
              have small : c.toNat < 128 := by
                rw [← number, Nat.ofDigitChars_cons, Nat.ofDigitChars_nil]
                have zero : '0'.toNat = 48 := by decide
                omega
              rw [utf8Size_low small]
              simp only [List.length_cons, List.length_nil] at bytes
              omega
          | cons next more =>
              simp only [List.length_cons] at bytes
              omega
  | @hexadecimal digits _ present all number legal =>
      have bytes := size_length ('&' :: '#' :: 'x' :: (digits ++ [';']))
      have positive := List.length_pos_of_ne_nil present
      simp only [List.length_cons, List.length_append, List.length_nil] at bytes
      omega

theorem hidden_size {text stands : List Char} (hidden : Hidden text stands) :
    size stands < size text := by
  cases hidden with
  | reference refers => simpa using reference_size refers
  | cdata legal open_ =>
      have start : size cdataStart = 9 := by decide
      rw [size_append, size_append, start]
      omega
  | comment comment =>
      obtain ⟨inner, _, _, _, rfl⟩ := comment
      exact Nat.lt_of_lt_of_le Nat.zero_lt_one
        (by simp only [size_cons]; have := Char.utf8Size_pos '<'; omega)
  | instruction instruction =>
      obtain ⟨target, inner, _, _, _, _, _, rfl⟩ := instruction
      exact Nat.lt_of_lt_of_le Nat.zero_lt_one
        (by simp only [size_cons]; have := Char.utf8Size_pos '<'; omega)

theorem startTag_size {text name : List Char} (tag : StartTag text name) :
    size name + 2 ≤ size text := by
  obtain ⟨_, names, attributes, _, rfl⟩ := tag
  have open_ : '<'.utf8Size = 1 := by decide
  have close : '>'.utf8Size = 1 := by decide
  simp only [size_cons, size_append, size_nil, open_, close]
  omega

theorem emptyTag_size {text name : List Char} (tag : EmptyTag text name) :
    size name + 3 ≤ size text := by
  obtain ⟨_, names, attributes, _, rfl⟩ := tag
  have open_ : '<'.utf8Size = 1 := by decide
  have slash : '/'.utf8Size = 1 := by decide
  have close : '>'.utf8Size = 1 := by decide
  simp only [size_cons, size_append, size_nil, open_, slash, close]
  omega

theorem endTag_size {text name : List Char} (tag : EndTag text name) :
    size name + 3 ≤ size text := by
  obtain ⟨space, _, rfl⟩ := tag
  have open_ : '<'.utf8Size = 1 := by decide
  have slash : '/'.utf8Size = 1 := by decide
  have close : '>'.utf8Size = 1 := by decide
  simp only [size_cons, size_append, size_nil, open_, slash, close]
  omega

theorem parses_weight {text : List Char} {content : Content} (parsed : Parses text content) :
    content.weight ≤ size text := by
  induction parsed with
  | chars data => exact Nat.le_refl _
  | element data starts parsed stops later inner rest =>
      have start := startTag_size starts
      have stop := endTag_size stops
      simp only [Content.weight, size_append]
      split <;> omega
  | empty data tagged later rest =>
      have tag := emptyTag_size tagged
      simp only [Content.weight, size_append, ↓reduceIte]
      omega
  | hidden data hidden later rest =>
      have piece := hidden_size hidden
      simp only [weight_prepend, size_append]
      omega

theorem inert_nil : Inert [] := by
  refine ⟨⟨by simp, ?_⟩, List.not_mem_nil⟩
  rw [List.infix_nil]
  exact List.cons_ne_nil _ _

/-- The induction follows the grammar: each rule adds at least what its content needs. -/
theorem parses_tight {text : List Char} {content : Content} (parsed : Parses text content)
    (plain : '\r' ∉ text) (tight : size text ≤ content.weight) : content.Literal := by
  induction parsed with
  | chars data => exact ⟨data, plain⟩
  | element data starts parsed stops later inner rest =>
      have start := startTag_size starts
      have stop := endTag_size stops
      have front := parses_weight parsed
      have back := parses_weight later
      simp only [List.mem_append, not_or] at plain
      obtain ⟨run, _, inside, _, behind⟩ := plain
      simp only [Content.weight, size_append] at tight
      split at tight
      · omega
      · exact ⟨⟨data, run⟩, inner inside (by omega), rest behind (by omega)⟩
  | empty data tagged later rest =>
      -- Nothing stands in the tag, and its size is the one that the weight counts.
      have tag := emptyTag_size tagged
      have back := parses_weight later
      simp only [List.mem_append, not_or] at plain
      obtain ⟨run, _, behind⟩ := plain
      simp only [Content.weight, size_append, ↓reduceIte] at tight
      exact ⟨⟨data, run⟩, inert_nil, rest behind (by omega)⟩
  | hidden data hidden later rest =>
      -- It takes more bytes than it stands for, so the text was not a shortest one.
      have piece := hidden_size hidden
      have back := parses_weight later
      simp only [weight_prepend, size_append] at tight
      omega

end Weights

/-! The plain text of a content. -/
section Plain

def Content.write : Content → List Char
  | .chars run => run
  | .element run name inner rest =>
      run ++ ('<' ::
        (name ++ ('>' :: (inner.write ++ ('<' :: '/' :: (name ++ ('>' :: rest.write)))))))

def Content.runs : Content → List (List Char)
  | .chars run => [run]
  | .element run _ inner rest => run :: (inner.runs ++ rest.runs)

def Content.Full : Content → Prop
  | .chars _ => True
  | .element _ _ inner rest => inner ≠ .chars [] ∧ inner.Full ∧ rest.Full

def Content.Named : Content → Prop
  | .chars _ => True
  | .element _ name inner rest => (Name name ∧ ∀ c ∈ name, c.toNat < 128) ∧ inner.Named ∧ rest.Named

section Prepend
variable (text : List Char) (content : Content)

theorem prepend_write : (content.prepend text).write = text ++ content.write := by
  cases content with
  | chars run => rfl
  | element run name inner rest => simp only [Content.prepend, Content.write, List.append_assoc]

theorem prepend_full : (content.prepend text).Full ↔ content.Full := by cases content <;> rfl

theorem prepend_named : (content.prepend text).Named ↔ content.Named := by cases content <;> rfl

end Prepend

theorem write_size {content : Content} (full : content.Full) :
    size content.write = content.weight := by
  induction content with
  | chars run => rfl
  | element run name inner rest first second =>
      obtain ⟨present, inside, behind⟩ := full
      have open_ : '<'.utf8Size = 1 := by decide
      have slash : '/'.utf8Size = 1 := by decide
      have close : '>'.utf8Size = 1 := by decide
      simp only [Content.write, Content.weight, size_append, size_cons,
        open_, slash, close, first inside,
        second behind, if_neg present]
      omega

theorem utf8_cons {c : Char} (low : c.toNat < 128) (text : List Char) :
    utf8 (c :: text) = c :: utf8 text := by
  have one : utf8 [c] = [c] := utf8_ascii (by simpa using low)
  rw [← List.singleton_append, utf8_append, one, List.singleton_append]

theorem encode_write (content : Content) : content.encode.write = utf8 content.write := by
  induction content with
  | chars run => rfl
  | element run name inner rest first second =>
      have open_ : '<'.toNat < 128 := by decide
      have slash : '/'.toNat < 128 := by decide
      have close : '>'.toNat < 128 := by decide
      simp only [Content.encode, Content.write, utf8_append, utf8_cons open_,
        utf8_cons slash, utf8_cons close,
        first, second]

theorem encode_runs (content : Content) : content.encode.runs = content.runs.map utf8 := by
  induction content with
  | chars run => rfl
  | element run name inner rest first second =>
      simp only [Content.encode, Content.runs, List.map_cons, List.map_append, first, second]

theorem encode_full {content : Content} (full : content.encode.Full) : content.Full := by
  induction content with
  | chars run => trivial
  | element run name inner rest first second =>
      obtain ⟨present, inside, behind⟩ := full
      refine ⟨?_, first inside, second behind⟩
      rintro rfl
      exact present rfl

theorem literal_runs (content : Content) : content.Literal ↔ ∀ run ∈ content.runs, Inert run := by
  induction content with
  | chars run => simp [Content.Literal, Content.runs]
  | element run name inner rest first second =>
      rw [Content.Literal, Content.runs, List.forall_mem_cons,
        List.forall_mem_append, first, second]

theorem plain_start {name : List Char} (named : Name name) :
    StartTag ('<' :: (name ++ ['>'])) name :=
  ⟨named, [], [], .nil (fun _ member => absurd member List.not_mem_nil), rfl⟩

theorem plain_end (name : List Char) : EndTag ('<' :: '/' :: (name ++ ['>'])) name :=
  ⟨[], fun _ member => absurd member List.not_mem_nil, rfl⟩

theorem parses_write {content : Content} (literal : content.Literal) (named : content.Named) :
    Parses content.write content := by
  induction content with
  | chars run => exact .chars literal.1
  | element run name inner rest first second =>
      obtain ⟨data, inside, behind⟩ := literal
      obtain ⟨⟨legal, _⟩, innerNamed, restNamed⟩ := named
      have parsed :=
        Parses.element data.1 (plain_start legal) (first inside innerNamed) (plain_end name)
        (second behind restNamed)
      simpa only [Content.write, List.cons_append, List.append_assoc, List.nil_append] using parsed

theorem name_plain {name : List Char} (named : Name name) : '\r' ∉ name := by
  cases name with
  | nil => exact List.not_mem_nil
  | cons first rest =>
      obtain ⟨start, all⟩ := named
      intro member
      rcases List.mem_cons.mp member with rfl | member
      · exact absurd start (by decide)
      · exact absurd (all _ member) (by decide)

theorem write_plain {content : Content} (literal : content.Literal) (named : content.Named) :
    '\r' ∉ content.write := by
  induction content with
  | chars run => exact literal.2
  | element run name inner rest first second =>
      obtain ⟨data, inside, behind⟩ := literal
      obtain ⟨⟨legal, _⟩, innerNamed, restNamed⟩ := named
      simp [Content.write, data.2, name_plain legal,
        first inside innerNamed, second behind restNamed]

end Plain

/-! Which plain texts are read as what they are made of. -/
section Reading

def InertBytes (bytes : List Char) : Prop := ∃ run, utf8 run = bytes ∧ Inert run

/-- The bytes are a well-formed document, and it denotes this content. -/
def ReadsAs (bytes : List Char) (content : Content) : Prop :=
  ∃ root, Denotes bytes root ∧ root.encode = content

theorem inertBytes_ascii_iff {run : List Char} (low : ∀ c ∈ run, c.toNat < 128) :
    InertBytes run ↔ Inert run := by
  constructor
  · rintro ⟨text, rfl, inert⟩
    rwa [utf8_low low]
  · exact fun inert => ⟨run, utf8_ascii low, inert⟩

theorem inertBytes_nil : InertBytes [] := ⟨[], rfl, inert_nil⟩

theorem decode_content {content : Content} (named : content.Named)
    (inert : ∀ run ∈ content.runs, InertBytes run) : ∃ root :
    Content, root.encode = content ∧ root.Literal ∧ root.Named := by
  induction content with
  | chars run =>
      obtain ⟨text, bytes, literal⟩ := inert run List.mem_cons_self
      exact ⟨.chars text, congrArg Content.chars bytes, literal, trivial⟩
  | element run name inner rest first second =>
      obtain ⟨legal, innerNamed, restNamed⟩ := named
      rw [Content.runs, List.forall_mem_cons, List.forall_mem_append] at inert
      obtain ⟨⟨text, bytes, literal⟩, inside, behind⟩ := inert
      obtain ⟨content, contentBytes, contentLiteral, contentNamed⟩ := first innerNamed inside
      obtain ⟨after, afterBytes, afterLiteral, afterNamed⟩ := second restNamed behind
      refine ⟨.element text name content after, ?_, ⟨literal, contentLiteral, afterLiteral⟩,
        legal, contentNamed, afterNamed⟩
      rw [Content.encode, bytes, contentBytes, afterBytes, utf8_ascii legal.2]

theorem lineEnds_self {text : List Char} (plain : '\r' ∉ text) : lineEnds text = text := by
  induction text with
  | nil => rfl
  | cons c rest ih =>
      obtain ⟨other, plain⟩ := List.ne_and_not_mem_of_not_mem_cons plain
      rw [lineEnds, ih plain]
      · rintro more rfl
        exact absurd rfl other
      · exact fun same => other same.symm

theorem lineEnds_plain (text : List Char) : '\r' ∉ lineEnds text := by
  fun_induction lineEnds text with
  | case1 rest ih => simp [ih]
  | case2 rest _ ih => simp [ih]
  | case3 c rest _ other ih => simp [ih, Ne.symm other]
  | case4 => exact List.not_mem_nil

theorem lineEnds_size (text : List Char) : size (lineEnds text) ≤ size text := by
  have line : '\n'.utf8Size = 1 := by decide
  have carriage : '\r'.utf8Size = 1 := by decide
  fun_induction lineEnds text with
  | case1 rest ih =>
      simp only [size_cons, line, carriage]
      omega
  | case2 rest _ ih =>
      simp only [size_cons, line, carriage]
      omega
  | case3 c rest _ other ih =>
      simp only [size_cons]
      omega
  | case4 => exact Nat.le_refl 0

theorem root_tight {text : List Char} {root : Content}
    (rooted : Root text root) (plain : '\r' ∉ text)
    (tight : size text ≤ root.weight) : root.Literal := by
  cases rooted with
  | element starts parsed stops =>
      have start := startTag_size starts
      have stop := endTag_size stops
      have inner := parses_weight parsed
      simp only [List.mem_append, not_or] at plain
      obtain ⟨_, inside, _⟩ := plain
      simp only [Content.weight, size_append, size_nil] at tight
      split at tight
      · omega
      · exact ⟨inert_nil, parses_tight parsed inside (by omega), inert_nil⟩
  | empty tagged => exact ⟨inert_nil, inert_nil, inert_nil⟩

theorem root_head {text : List Char} {root : Content} (rooted : Root text root) :
    text.head? = some '<' := by
  cases rooted with
  | element starts parsed stops =>
      obtain ⟨_, names, attributes, _, rfl⟩ := starts
      rfl
  | empty tagged =>
      obtain ⟨_, names, attributes, _, rfl⟩ := tagged
      rfl

theorem lineEnds_head {text : List Char} (head : (lineEnds text).head? = some '<') :
    text.head? = some '<' := by
  unfold lineEnds at head
  split at head
  · exact absurd head (by simp)
  · exact absurd head (by simp)
  · exact head
  · exact head

theorem document_lead {lead : List Char} (leads : lead = [] ∨ lead = [' '])
    {text bytes before body after : List Char} {root : Content}
    (coded : utf8 text = lead ++ bytes) (rooted : Root body root)
    (split : lineEnds text = before ++ (body ++ after)) : lead.length ≤ size before := by
  rcases leads with rfl | rfl
  · exact Nat.zero_le _
  · by_contra short
    have none : before = [] := size_eq_zero.mp (by simpa using short)
    have head : (lineEnds text).head? = some '<' := by
      rw [split, none, List.nil_append, List.head?_append, root_head rooted]
      rfl
    have first := lineEnds_head head
    cases text with
    | nil => exact absurd first (by simp)
    | cons c rest =>
        cases first
        rw [utf8_cons (by decide)] at coded
        exact absurd (List.cons.inj coded).1 (by decide)

theorem root_write {name : List Char} {inner root : Content}
    (encoded : root.encode = .element [] name inner (.chars [])) (literal : root.Literal)
    (named : root.Named) : Root root.write root := by
  cases root with
  | chars run => cases encoded
  | element run first content rest =>
      injection encoded with runBytes _ _ restBytes
      cases utf8_eq_nil.mp runBytes
      cases rest with
      | element run name inner rest => cases restBytes
      | chars last =>
          injection restBytes with lastBytes
          cases utf8_eq_nil.mp lastBytes
          have rooted := Root.element (plain_start named.1.1) (parses_write literal.2.1 named.2.1)
            (plain_end first)
          simpa only [Content.write, List.cons_append, List.append_assoc, List.nil_append]
            using rooted

theorem readsAs_iff {lead : List Char} (leads : lead = [] ∨ lead = [' '])
    {name : List Char} {inner : Content} (full : (Content.element [] name inner (.chars [])).Full)
    (named : (Content.element [] name inner (.chars [])).Named) :
    ReadsAs (lead ++ (Content.element [] name inner (.chars [])).write)
      (.element [] name inner (.chars [])) ↔
      ∀ run ∈ (Content.element [] name inner (.chars [])).runs, InertBytes run := by
  constructor
  · rintro ⟨root, ⟨text, coded, before, body, after, _, rooted, _, split⟩, encoded⟩
    rw [← encoded] at full
    -- The bytes are as many as the content needs, so the root takes all of them but the lead.
    have space := document_lead leads coded rooted split
    have whole := congrArg List.length coded
    rw [utf8_length, List.length_append, ← encoded, encode_write, utf8_length,
      write_size (encode_full full)] at whole
    have shorter := lineEnds_size text
    rw [split, size_append, size_append] at shorter
    have plain : '\r' ∉ body := fun member => lineEnds_plain text (by rw [split]; simp [member])
    have literal := (literal_runs root).mp (root_tight rooted plain (by omega))
    intro run member
    rw [← encoded, encode_runs] at member
    obtain ⟨characters, among, rfl⟩ := List.mem_map.mp member
    exact ⟨characters, rfl, literal characters among⟩
  · intro inert
    obtain ⟨root, encoded, literal, rootNamed⟩ := decode_content named inert
    refine ⟨root, ⟨lead ++ root.write, ?_, ?_⟩, encoded⟩
    · have leadAscii : utf8 lead = lead := by
        rcases leads with rfl | rfl
        · rfl
        · decide
      rw [utf8_append, leadAscii, ← encode_write, encoded]
    · have leadPlain : '\r' ∉ lead := by rcases leads with rfl | rfl <;> decide
      rw [lineEnds_self (by simp [leadPlain, write_plain literal rootNamed])]
      have rooted := root_write encoded literal rootNamed
      have misc : Misc lead := by
        rcases leads with rfl | rfl
        · exact .nil
        · exact .space (by decide) .nil
      exact ⟨lead, root.write, [], misc, rooted, .nil, by rw [List.append_nil]⟩

end Reading

end NatClient.XmlGrammar
