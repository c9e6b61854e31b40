import Mathlib

/-!
# Elements with attributes

The part of XML that has elements and attributes, and no text, entities or comments. A
reader takes one character at a time and collects tags; the tags are then nested into
elements. A writer that puts one tag on a line, with any blanks before it, is read back.
-/

namespace NcclExts.Foundation

/-- What an element starts with. -/
structure XmlHead where
  name : List Char
  attributes : List (List Char × List Char)
deriving DecidableEq

/-- An element, and the elements inside of it. -/
inductive Xml where
  | element (head : XmlHead) (inside : List Xml)

inductive XmlTag where
  | opens (head : XmlHead)
  | leaf (head : XmlHead)
  | closes (name : List Char)
deriving DecidableEq

def Xml.head : Xml → XmlHead
  | .element head _ => head

/-- The elements inside of an element. -/
def Xml.inside : Xml → List Xml
  | .element _ inside => inside

/-- The value of an attribute; empty without it. -/
def Xml.value (element : Xml) (key : List Char) : List Char :=
  ((element.head.attributes.find? fun entry => entry.1 = key).map Prod.snd).getD []

/-- The value of the first attribute. -/
theorem Xml.value_first (name key value : List Char) (rest : List (List Char × List Char))
    (inside : List Xml) : (Xml.element ⟨name, (key, value) :: rest⟩ inside).value key = value := by
  simp [Xml.value, Xml.head]

/-! ## Reading tags -/

def isBlank (c : Char) : Bool := c = ' ' || c = '\n' || c = '\t' || c = '\r'

/-- The characters of names. -/
def isNamed (c : Char) : Bool := c.isAlphanum || c = '_' || c = '-' || c = '.' || c = ':'

/-- The characters of values. -/
def isPlain (c : Char) : Bool := c ≠ '"' && c ≠ '<' && c ≠ '&' && c ≠ Char.ofNat 0

/-- Where in a tag the reader is, with what it has read of the tag. -/
inductive XmlPlace where
  | outside
  | starting
  | naming (name : List Char)
  | within (head : XmlHead)
  | keying (head : XmlHead) (key : List Char)
  | quoting (head : XmlHead) (key : List Char)
  | valuing (head : XmlHead) (key value : List Char)
  | ending (head : XmlHead)
  | closing (name : List Char)
deriving DecidableEq

structure XmlReader where
  place : XmlPlace
  tags : List XmlTag

namespace XmlReader

def moved (reader : XmlReader) (place : XmlPlace) : XmlReader := { reader with place := place }

/-- A tag has been read. -/
def emit (reader : XmlReader) (tag : XmlTag) : XmlReader := ⟨.outside, reader.tags ++ [tag]⟩

/-- One character; `none` where it cannot stand. -/
def step (reader : XmlReader) (c : Char) : Option XmlReader :=
  match reader.place with
  | .outside =>
    if isBlank c then some reader else if c = '<' then some (reader.moved .starting) else none
  | .starting =>
    if c = '/' then some (reader.moved (.closing []))
    else if isNamed c then some (reader.moved (.naming [c])) else none
  | .naming name =>
    if isNamed c then some (reader.moved (.naming (name ++ [c])))
    else if isBlank c then some (reader.moved (.within ⟨name, []⟩))
    else if c = '/' then some (reader.moved (.ending ⟨name, []⟩))
    else if c = '>' then some (reader.emit (.opens ⟨name, []⟩)) else none
  | .within head =>
    if isBlank c then some reader
    else if isNamed c then some (reader.moved (.keying head [c]))
    else if c = '/' then some (reader.moved (.ending head))
    else if c = '>' then some (reader.emit (.opens head)) else none
  | .keying head key =>
    if isNamed c then some (reader.moved (.keying head (key ++ [c])))
    else if c = '=' then some (reader.moved (.quoting head key)) else none
  | .quoting head key => if c = '"' then some (reader.moved (.valuing head key [])) else none
  | .valuing head key value =>
    if isPlain c then some (reader.moved (.valuing head key (value ++ [c])))
    else if c = '"' then
      some (reader.moved (.within ⟨head.name, head.attributes ++ [(key, value)]⟩))
    else none
  | .ending head => if c = '>' then some (reader.emit (.leaf head)) else none
  | .closing name =>
    if isNamed c then some (reader.moved (.closing (name ++ [c])))
    else if c = '>' then some (reader.emit (.closes name)) else none

def read (reader : XmlReader) (text : List Char) : Option XmlReader := text.foldlM step reader

end XmlReader

/-! ## Nesting -/

/-- The elements read so far, of the innermost element that is open and of those around it. -/
structure XmlNest where
  siblings : List Xml
  parents : List (XmlHead × List Xml)

def XmlNest.step (nest : XmlNest) : XmlTag → Option XmlNest
  | .opens head => some ⟨[], (head, nest.siblings) :: nest.parents⟩
  | .leaf head => some { nest with siblings := nest.siblings ++ [.element head []] }
  | .closes name =>
    match nest.parents with
    | [] => none
    | (head, older) :: parents =>
      if head.name = name then some ⟨older ++ [.element head nest.siblings], parents⟩ else none

/-- The elements of a text. -/
def readXml (text : List Char) : Option (List Xml) := do
  let reader ← XmlReader.read ⟨.outside, []⟩ text
  let nest ← reader.tags.foldlM XmlNest.step ⟨[], []⟩
  if reader.place = .outside ∧ nest.parents.isEmpty then some nest.siblings else none

/-! ## Writing -/

def attributeText (entry : List Char × List Char) : List Char :=
  ' ' :: entry.1 ++ '=' :: '"' :: entry.2 ++ ['"']

def XmlHead.text (head : XmlHead) : List Char :=
  head.name ++ head.attributes.flatMap attributeText

def XmlTag.text : XmlTag → List Char
  | .opens head => '<' :: head.text ++ ['>']
  | .leaf head => '<' :: head.text ++ ['/', '>']
  | .closes name => '<' :: '/' :: name ++ ['>']

/-- A tag on a line of its own, some blanks from its start. -/
def lineText (line : Nat × XmlTag) : List Char :=
  List.replicate line.1 ' ' ++ line.2.text ++ ['\n']

/-- A name that is one word. -/
def IsName (name : List Char) : Prop := name ≠ [] ∧ ∀ c ∈ name, isNamed c = true

/-- Names are words, and values have no quotes and no markup. -/
structure XmlHead.Writable (head : XmlHead) : Prop where
  name : IsName head.name
  keys : ∀ entry ∈ head.attributes, IsName entry.1
  values : ∀ entry ∈ head.attributes, ∀ c ∈ entry.2, isPlain c = true

def XmlTag.Writable : XmlTag → Prop
  | .opens head | .leaf head => head.Writable
  | .closes name => IsName name

instance (name : List Char) : Decidable (IsName name) :=
  decidable_of_iff (name ≠ [] ∧ name.all isNamed = true)
    (and_congr_right fun _ => List.all_eq_true)

/-! ## What is written is read -/

namespace XmlReader

variable {reader after : XmlReader} {tags : List XmlTag}

theorem read_append (first later : List Char) :
    reader.read (first ++ later) = (reader.read first).bind fun middle => middle.read later :=
  List.foldlM_append

theorem read_cons (c : Char) (text : List Char) :
    reader.read (c :: text) = (reader.step c).bind fun middle => middle.read text := rfl

@[simp] theorem read_nil : reader.read [] = some reader := rfl

/-- Blanks between tags. -/
theorem read_blank {text : List Char} (blank : ∀ c ∈ text, isBlank c = true) :
    XmlReader.read ⟨.outside, tags⟩ text = some ⟨.outside, tags⟩ := by
  induction text with
  | nil => rfl
  | cons c rest ih =>
    have isBlank := blank c List.mem_cons_self
    rw [read_cons, step]
    simp only [isBlank, if_true]
    exact ih fun c member => blank c (List.mem_cons_of_mem _ member)

/-- Characters that are collected. -/
theorem read_word {place : List Char → XmlPlace} {text : List Char}
    (collects : ∀ c ∈ text, ∀ word, XmlReader.step ⟨place word, tags⟩ c =
      some ⟨place (word ++ [c]), tags⟩) (word : List Char) :
    XmlReader.read ⟨place word, tags⟩ text = some ⟨place (word ++ text), tags⟩ := by
  induction text generalizing word with
  | nil => simp
  | cons c rest ih =>
    rw [read_cons, collects c List.mem_cons_self, Option.bind_some,
      ih fun c member => collects c (List.mem_cons_of_mem _ member), List.append_assoc]
    rfl

/-- The place behind the name or the last attribute of a head. -/
def Behind (place : XmlPlace) (head : XmlHead) : Prop :=
  place = .within head ∨ place = .naming head.name ∧ head.attributes = []

/-- A character of a name is no blank and no markup. -/
theorem not_blank {c : Char} (named : isNamed c = true) : isBlank c = false := by
  by_contra blank
  rw [Bool.not_eq_false] at blank
  simp only [isBlank, Bool.or_eq_true, decide_eq_true_eq] at blank
  rcases blank with ((rfl | rfl) | rfl) | rfl <;> exact absurd named (by decide)

/-- An attribute behind a blank. -/
theorem read_attribute {place : XmlPlace} {head : XmlHead} (behind : Behind place head)
    {entry : List Char × List Char} (isName : IsName entry.1)
    (plain : ∀ c ∈ entry.2, isPlain c = true) :
    XmlReader.read ⟨place, tags⟩ (attributeText entry) =
      some ⟨.within ⟨head.name, head.attributes ++ [entry]⟩, tags⟩ := by
  obtain ⟨key, value⟩ := entry
  obtain ⟨nonempty, named⟩ := isName
  obtain ⟨first, rest, rfl⟩ := List.exists_cons_of_ne_nil nonempty
  have blank : XmlReader.step ⟨place, tags⟩ ' ' = some ⟨.within head, tags⟩ := by
    rcases behind with rfl | ⟨rfl, none⟩
    · rfl
    · obtain ⟨name, attributes⟩ := head
      obtain rfl : attributes = [] := none
      rfl
  have isFirst := named first List.mem_cons_self
  have starts : XmlReader.step ⟨.within head, tags⟩ first =
      some ⟨.keying head [first], tags⟩ := by
    simp [step, not_blank isFirst, isFirst, moved]
  have keys : XmlReader.read ⟨.keying head [first], tags⟩ rest =
      some ⟨.keying head (first :: rest), tags⟩ := by
    refine read_word (fun c member key => ?_) [first]
    simp [step, named c (List.mem_cons_of_mem _ member), moved]
  have values : XmlReader.read ⟨.valuing head (first :: rest) [], tags⟩ value =
      some ⟨.valuing head (first :: rest) value, tags⟩ := by
    refine read_word (fun c member value => ?_) []
    simp [step, plain c member, moved]
  have text : attributeText (first :: rest, value) =
      ' ' :: first :: (rest ++ '=' :: '"' :: (value ++ ['"'])) := by
    simp [attributeText]
  rw [text, read_cons, blank, Option.bind_some, read_cons, starts, Option.bind_some, read_append,
    keys, Option.bind_some]
  change (XmlReader.read ⟨.valuing head (first :: rest) [], tags⟩ (value ++ ['"'])) = _
  rw [read_append, values]
  rfl

/-- The attributes of a head, up to the place behind them. -/
theorem read_attributes {place : XmlPlace} {head : XmlHead} (behind : Behind place head)
    {entries : List (List Char × List Char)} (keys : ∀ entry ∈ entries, IsName entry.1)
    (values : ∀ entry ∈ entries, ∀ c ∈ entry.2, isPlain c = true) :
    ∃ place', XmlReader.read ⟨place, tags⟩ (entries.flatMap attributeText) =
        some ⟨place', tags⟩ ∧ Behind place' ⟨head.name, head.attributes ++ entries⟩ := by
  induction entries generalizing place head with
  | nil => exact ⟨place, rfl, by simpa using behind⟩
  | cons entry rest ih =>
    have next : Behind (.within ⟨head.name, head.attributes ++ [entry]⟩)
        ⟨head.name, head.attributes ++ [entry]⟩ := .inl rfl
    obtain ⟨place', read, behind'⟩ := ih next
      (fun entry member => keys entry (List.mem_cons_of_mem _ member))
      (fun entry member => values entry (List.mem_cons_of_mem _ member))
    refine ⟨place', ?_, by simpa using behind'⟩
    rw [List.flatMap_cons, read_append,
      read_attribute behind (keys entry List.mem_cons_self) (values entry List.mem_cons_self),
      Option.bind_some, read]

/-- The text of a head, up to the place behind it. -/
theorem read_head {head : XmlHead} (writable : head.Writable) :
    ∃ place, XmlReader.read ⟨.starting, tags⟩ head.text = some ⟨place, tags⟩ ∧
      Behind place head := by
  obtain ⟨⟨nonempty, named⟩, keys, values⟩ := writable
  obtain ⟨first, rest, isName⟩ := List.exists_cons_of_ne_nil nonempty
  rw [isName] at named
  have isFirst := named first List.mem_cons_self
  have starts : XmlReader.step ⟨.starting, tags⟩ first = some ⟨.naming [first], tags⟩ := by
    have noSlash : first ≠ '/' := by
      rintro rfl
      exact absurd isFirst (by decide)
    simp [step, noSlash, isFirst, moved]
  have names : XmlReader.read ⟨.naming [first], tags⟩ rest = some ⟨.naming head.name, tags⟩ := by
    rw [isName]
    refine read_word (fun c member word => ?_) [first]
    simp [step, named c (List.mem_cons_of_mem _ member), moved]
  have behind : Behind (.naming head.name) ⟨head.name, []⟩ := .inr ⟨rfl, rfl⟩
  obtain ⟨place, read, behind⟩ := read_attributes behind keys values
  refine ⟨place, ?_, behind⟩
  rw [XmlHead.text, isName, List.cons_append, read_cons, starts, Option.bind_some, read_append,
    names, Option.bind_some, read]

/-- Behind a head its tag ends. -/
theorem read_end {place : XmlPlace} {head : XmlHead} (behind : Behind place head) :
    XmlReader.read ⟨place, tags⟩ ['>'] = some ⟨.outside, tags ++ [.opens head]⟩ ∧
      XmlReader.read ⟨place, tags⟩ ['/', '>'] = some ⟨.outside, tags ++ [.leaf head]⟩ := by
  obtain ⟨name, attributes⟩ := head
  rcases behind with rfl | ⟨rfl, none⟩
  · exact ⟨rfl, rfl⟩
  · obtain rfl : attributes = [] := none
    exact ⟨rfl, rfl⟩

theorem read_tag {tag : XmlTag} (writable : tag.Writable) :
    XmlReader.read ⟨.outside, tags⟩ tag.text = some ⟨.outside, tags ++ [tag]⟩ := by
  have starts : XmlReader.step ⟨.outside, tags⟩ '<' = some ⟨.starting, tags⟩ := rfl
  cases tag with
  | opens head =>
    obtain ⟨place, read, behind⟩ := read_head writable
    rw [XmlTag.text, List.cons_append, read_cons, starts, Option.bind_some, read_append, read]
    exact (read_end behind).1
  | leaf head =>
    obtain ⟨place, read, behind⟩ := read_head writable
    rw [XmlTag.text, List.cons_append, read_cons, starts, Option.bind_some, read_append, read]
    exact (read_end behind).2
  | closes name =>
    have names : XmlReader.read ⟨.closing [], tags⟩ name = some ⟨.closing name, tags⟩ := by
      refine read_word (fun c member word => ?_) []
      simp [step, writable.2 c member, moved]
    rw [XmlTag.text, List.cons_append, List.cons_append, read_cons, starts, Option.bind_some,
      read_cons]
    change XmlReader.read ⟨.closing [], tags⟩ (name ++ ['>']) = _
    rw [read_append, names]
    rfl

/-- Tags on lines of their own. -/
theorem read_lines {lines : List (Nat × XmlTag)} (writable : ∀ line ∈ lines, line.2.Writable) :
    XmlReader.read ⟨.outside, tags⟩ (lines.flatMap lineText) =
      some ⟨.outside, tags ++ lines.map Prod.snd⟩ := by
  induction lines generalizing tags with
  | nil => simp
  | cons line rest ih =>
    have indent : ∀ c ∈ List.replicate line.1 ' ', isBlank c = true := by
      intro c member
      rw [(List.mem_replicate.mp member).2]
      rfl
    have newline : ∀ c ∈ ['\n'], isBlank c = true := by simp [isBlank]
    rw [List.flatMap_cons, read_append, lineText, read_append, read_append, read_blank indent,
      Option.bind_some, read_tag (writable line List.mem_cons_self), Option.bind_some,
      read_blank newline, Option.bind_some,
      ih fun line member => writable line (List.mem_cons_of_mem _ member), List.map_cons,
      List.append_assoc]
    rfl

end XmlReader

/-- The tags nest into elements, wherever they stand. -/
def Builds (tags : List XmlTag) (elements : List Xml) : Prop :=
  ∀ nest : XmlNest, tags.foldlM XmlNest.step nest =
    some { nest with siblings := nest.siblings ++ elements }

theorem Builds.nil : Builds [] [] := by
  intro nest
  simp

theorem Builds.append {first later : List XmlTag} {elements more : List Xml}
    (builds : Builds first elements) (builds' : Builds later more) :
    Builds (first ++ later) (elements ++ more) := by
  intro nest
  rw [List.foldlM_append, builds nest, Option.bind_eq_bind, Option.bind_some, builds' _,
    List.append_assoc]

theorem Builds.leaf (head : XmlHead) : Builds [.leaf head] [.element head []] := fun _ => rfl

theorem Builds.element (head : XmlHead) {tags : List XmlTag} {inside : List Xml}
    (builds : Builds tags inside) :
    Builds (.opens head :: tags ++ [.closes head.name]) [.element head inside] := by
  intro nest
  rw [List.cons_append, List.foldlM_cons]
  change (tags ++ [XmlTag.closes head.name]).foldlM XmlNest.step
    ⟨[], (head, nest.siblings) :: nest.parents⟩ = _
  rw [List.foldlM_append, builds _]
  simp [XmlNest.step]

theorem Builds.flatMap {α : Type} {items : List α} {tags : α → List XmlTag}
    {elements : α → List Xml} (builds : ∀ item ∈ items, Builds (tags item) (elements item)) :
    Builds (items.flatMap tags) (items.flatMap elements) := by
  induction items with
  | nil => exact .nil
  | cons item rest ih =>
    rw [List.flatMap_cons, List.flatMap_cons]
    exact (builds item List.mem_cons_self).append
      (ih fun item member => builds item (List.mem_cons_of_mem _ member))

/-- Lines whose tags nest into elements are read as these. -/
theorem readXml_lines {lines : List (Nat × XmlTag)} {elements : List Xml}
    (writable : ∀ line ∈ lines, line.2.Writable) (builds : Builds (lines.map Prod.snd) elements) :
    readXml (lines.flatMap lineText) = some elements := by
  have nested := builds ⟨[], []⟩
  simp [readXml, XmlReader.read_lines writable, nested]

end NcclExts.Foundation
