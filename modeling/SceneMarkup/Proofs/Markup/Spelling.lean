/-
  SceneMarkup/Proofs/Markup/Spelling.lean --- texts and values in markup, decoded.

  WHAT THIS FILE IS FOR.  Some characters do not stand for themselves in markup and are
  spelled: by an entity, by an element for a line break, by a quoted brace.  A `Code` lists
  the spellings and the characters that are reserved for them, and its decoder replaces
  spellings from left to right, whatever the text.  `Code.Spelled` says piece by piece what
  a text means; an escaped text is a spelled one, and all that is said here of escaping
  follows from that.
-/
import SceneMarkup.Proofs.Markup.Entities

set_option autoImplicit false

namespace SceneMarkup.Markup

/-! ## Codes -/

/-- Some characters that together stand for one. -/
structure Spelling where
  written : List Char
  meant : Char
  deriving DecidableEq, Repr

/-- Spellings, and the characters that are kept for them. Each spelling begins with such a character
and is not the beginning of another, so there is one way to tell the spellings of a text. -/
structure Code where
  spellings : List Spelling
  reserved : List Char
  head_reserved : ∀ s ∈ spellings, s.written.head?.any (· ∈ reserved) = true
  prefix_free : ∀ s ∈ spellings, ∀ t ∈ spellings, s.written <+: t.written → s = t

/-- A place of a text lies in a given part of the text. -/
def PartOf (part text : List Char) (i : Nat) : Prop :=
  ∃ start, part <+: text.drop start ∧ start ≤ i ∧ i < start + part.length

namespace Code

/-- A text with its spellings replaced, from left to right; the characters left of a spelling that
is replaced already are counted. -/
def decodeFrom (code : Code) : Nat → List Char → List Char
  | _, [] => []
  | left + 1, _ :: rest => code.decodeFrom left rest
  | 0, c :: rest =>
      match code.spellings.find? fun s => s.written.isPrefixOf (c :: rest) with
      | some s => s.meant :: code.decodeFrom (s.written.length - 1) rest
      | none => c :: code.decodeFrom 0 rest

/-- What a text means. -/
def decode (code : Code) (text : List Char) : List Char := code.decodeFrom 0 text

/-- How a character is written: by one of its spellings, or as it is unless it is reserved. -/
inductive Writes (code : Code) : Char → List Char → Prop where
  | spelling {s : Spelling} (mem : s ∈ code.spellings) : Writes code s.meant s.written
  | plain {c : Char} (free : c ∉ code.reserved) : Writes code c [c]

/-- A text and what it means, one character after the other. -/
inductive Spelled (code : Code) : List Char → List Char → Prop where
  | nil : Spelled code [] []
  | cons {c : Char} {piece text chars : List Char} (writes : Writes code c piece)
      (rest : Spelled code text chars) : Spelled code (piece ++ text) (c :: chars)

variable {code : Code}

/-! ## Decoding -/

theorem exists_head {s : Spelling} (hs : s ∈ code.spellings) :
    ∃ c others, s.written = c :: others ∧ c ∈ code.reserved := by
  obtain ⟨c, hhead, hc⟩ := (Option.any_eq_true _ _).1 (code.head_reserved s hs)
  obtain ⟨others, hwritten⟩ := List.head?_eq_some_iff.1 hhead
  exact ⟨c, others, hwritten, of_decide_eq_true hc⟩

theorem decodeFrom_append (first rest : List Char) :
    code.decodeFrom first.length (first ++ rest) = code.decodeFrom 0 rest := by
  induction first with
  | nil => rfl
  | cons c first ih => exact ih

/-- Of the spellings only one begins a text that begins with it. -/
theorem find?_spelling {s : Spelling} (hs : s ∈ code.spellings) (rest : List Char) :
    code.spellings.find? (fun t => t.written.isPrefixOf (s.written ++ rest)) = some s := by
  have hfound : s.written.isPrefixOf (s.written ++ rest) = true :=
    List.isPrefixOf_iff_prefix.2 (List.prefix_append _ _)
  cases hfind : code.spellings.find? fun t => t.written.isPrefixOf (s.written ++ rest) with
  | none => exact absurd hfound (List.find?_eq_none.1 hfind s hs)
  | some t =>
      have ht : t ∈ code.spellings := List.mem_of_find?_eq_some hfind
      have hbegins : t.written <+: s.written ++ rest :=
        List.isPrefixOf_iff_prefix.1 (List.find?_some
          (p := fun t : Spelling => t.written.isPrefixOf (s.written ++ rest)) hfind)
      obtain h | h := List.prefix_or_prefix_of_prefix hbegins (List.prefix_append s.written rest)
      · rw [code.prefix_free t ht s hs h]
      · rw [code.prefix_free s hs t ht h]

theorem decode_spelling {s : Spelling} (hs : s ∈ code.spellings) (rest : List Char) :
    code.decode (s.written ++ rest) = s.meant :: code.decode rest := by
  have hfind := find?_spelling hs rest
  obtain ⟨c, others, hwritten, -⟩ := exists_head hs
  rw [hwritten, List.cons_append] at hfind ⊢
  rw [decode, decodeFrom, hfind]
  show s.meant :: code.decodeFrom (s.written.length - 1) (others ++ rest) = _
  rw [hwritten, List.length_cons, Nat.add_sub_cancel, decodeFrom_append, decode]

theorem decode_plain {c : Char} (hc : c ∉ code.reserved) (rest : List Char) :
    code.decode (c :: rest) = c :: code.decode rest := by
  have hfind : code.spellings.find? (fun s => s.written.isPrefixOf (c :: rest)) = none := by
    refine List.find?_eq_none.2 fun s hs hstart => ?_
    obtain ⟨d, others, hwritten, hd⟩ := exists_head hs
    rw [hwritten, List.isPrefixOf_iff_prefix, List.cons_prefix_cons] at hstart
    exact hc (hstart.1 ▸ hd)
  rw [decode, decodeFrom, hfind]
  rfl

theorem Writes.decode_append {c : Char} {piece : List Char} (h : code.Writes c piece)
    (rest : List Char) : code.decode (piece ++ rest) = c :: code.decode rest := by
  cases h with
  | spelling mem => exact decode_spelling mem rest
  | plain free => exact decode_plain free rest

/-- A text is decoded to what it means. -/
theorem Spelled.decode_eq {text chars : List Char} (h : code.Spelled text chars) :
    code.decode text = chars := by
  induction h with
  | nil => rfl
  | cons writes _ ih => rw [writes.decode_append, ih]

/-! ## Reserved characters -/

/-- Where a reserved character is written, there is a spelling. -/
theorem Writes.exists_spelling {c d : Char} {piece : List Char} (h : code.Writes c piece)
    (hd : d ∈ code.reserved) (hmem : d ∈ piece) : ∃ s ∈ code.spellings, s.written = piece := by
  cases h with
  | spelling mem => exact ⟨_, mem, rfl⟩
  | plain free => exact absurd (List.mem_singleton.1 hmem ▸ hd) free

/-- A reserved character occurs only in spellings. -/
theorem Spelled.exists_start {text chars : List Char} (h : code.Spelled text chars) {c : Char}
    (hc : c ∈ code.reserved) {i : Nat} (hi : text[i]? = some c) :
    ∃ s ∈ code.spellings, ∃ start k, i = start + k ∧ s.written[k]? = some c ∧
      s.written <+: text.drop start := by
  induction h generalizing i with
  | nil => cases hi
  | @cons d piece text chars writes _ ih =>
      -- only the piece that the place is in can begin in front of it and go on behind it
      by_cases hlt : i < piece.length
      · rw [List.getElem?_append_left hlt] at hi
        obtain ⟨s, hs, rfl⟩ := writes.exists_spelling hc (List.mem_of_getElem? hi)
        exact ⟨s, hs, 0, i, (Nat.zero_add i).symm, hi, List.prefix_append _ _⟩
      · rw [List.getElem?_append_right (Nat.le_of_not_lt hlt)] at hi
        obtain ⟨s, hs, start, k, hplace, hat, hbegins⟩ := ih hi
        refine ⟨s, hs, piece.length + start, k, by omega, hat, ?_⟩
        rwa [List.drop_length_add_append]

/-- A reserved character is a part of a spelling that has the character. -/
theorem Spelled.partOf {text chars : List Char} (h : code.Spelled text chars) {c : Char}
    (hc : c ∈ code.reserved) {i : Nat} (hi : text[i]? = some c) :
    ∃ s ∈ code.spellings, c ∈ s.written ∧ PartOf s.written text i := by
  obtain ⟨s, hs, start, k, rfl, hat, hbegins⟩ := h.exists_start hc hi
  obtain ⟨hlt, -⟩ := List.getElem?_eq_some_iff.1 hat
  exact ⟨s, hs, List.mem_of_getElem? hat, start, hbegins, Nat.le_add_right start k,
    Nat.add_lt_add_left hlt start⟩

end Code

/-! ## Spellings of markup -/

/-- The four entities. -/
def entities : List Spelling :=
  [⟨"&amp;".toList, '&'⟩, ⟨"&quot;".toList, '"'⟩, ⟨"&lt;".toList, '<'⟩, ⟨"&gt;".toList, '>'⟩]

/-- The braces that are quoted between braces; where braces mean nothing there are none. -/
def quotedBraces : Flavor → List Spelling
  | .html => []
  | .jsx => [⟨"\x7b'\x7b'\x7d".toList, '\x7b'⟩, ⟨"\x7b'\x7d'\x7d".toList, '\x7d'⟩]

/-- How values of attributes are spelled. -/
def valueCode : Code where
  spellings := entities
  reserved := entities.map (·.meant)
  head_reserved := by decide
  prefix_free := by decide

/-- How texts are spelled. -/
def textCode (flavor : Flavor) : Code where
  spellings := ⟨flavor.lineBreak, '\n'⟩ :: (quotedBraces flavor ++ entities)
  reserved := '&' :: '<' :: '>' :: (quotedBraces flavor).map (·.meant)
  head_reserved := by cases flavor <;> decide
  prefix_free := by cases flavor <;> decide

/-! ## Escaped values -/

theorem writes_attributeChar (c : Char) : valueCode.Writes c (attributeChar c) := by
  have hentity : ∀ s ∈ entities, valueCode.Writes s.meant s.written := fun s hs => .spelling hs
  unfold attributeChar
  split
  · exact hentity ⟨"&amp;".toList, '&'⟩ (by decide)
  · exact hentity ⟨"&quot;".toList, '"'⟩ (by decide)
  · exact hentity ⟨"&lt;".toList, '<'⟩ (by decide)
  · exact hentity ⟨"&gt;".toList, '>'⟩ (by decide)
  · rename_i hamp hquote hless hgreater
    refine .plain ?_
    simp only [valueCode, entities, List.map_cons, List.map_nil, List.mem_cons, List.not_mem_nil,
      or_false, not_or]
    exact ⟨hamp, hquote, hless, hgreater⟩

theorem spelled_attributeChars (cs : List Char) :
    valueCode.Spelled (cs.flatMap attributeChar) cs := by
  induction cs with
  | nil => exact .nil
  | cons c cs ih => exact .cons (writes_attributeChar c) ih

/-- Text with each occurrence of a character written otherwise. -/
def replaced (text : List Char) (s : Spelling) : List Char :=
  text.flatMap fun c => if c = s.meant then s.written else [c]

theorem foldl_replaced_append (table : List Spelling) (first second : List Char) :
    table.foldl replaced (first ++ second) =
      table.foldl replaced first ++ table.foldl replaced second := by
  induction table generalizing first second with
  | nil => rfl
  | cons s table ih => rw [List.foldl_cons, replaced, List.flatMap_append]; exact ih _ _

theorem foldl_replaced_of_not_mem {table : List Spelling} {c : Char}
    (h : c ∉ table.map (·.meant)) : table.foldl replaced [c] = [c] := by
  induction table with
  | nil => rfl
  | cons s table ih =>
      rw [List.map_cons, List.mem_cons, not_or] at h
      rw [List.foldl_cons, replaced, List.flatMap_singleton, if_neg h.1, ih h.2]

theorem foldl_replaced_singleton (c : Char) :
    entities.foldl replaced [c] = attributeChar c := by
  have hentities : ∀ s ∈ entities, entities.foldl replaced [s.meant] = s.written := by decide
  have hwrites := writes_attributeChar c
  generalize attributeChar c = piece at hwrites ⊢
  cases hwrites with
  | spelling mem => exact hentities _ mem
  | plain free => exact foldl_replaced_of_not_mem free

/-- One pass over a value is as good as one pass for each entity, if the ampersands come first. -/
theorem foldl_replaced_entities (cs : List Char) :
    entities.foldl replaced cs = cs.flatMap attributeChar := by
  induction cs with
  | nil => rfl
  | cons c cs ih =>
      rw [← List.singleton_append, foldl_replaced_append, foldl_replaced_singleton, ih,
        List.flatMap_append, List.flatMap_singleton]

/-- An ampersand in an escaped value is the beginning of an entity. -/
theorem entity_of_ampersand {cs : List Char} {i : Nat}
    (h : (cs.flatMap attributeChar)[i]? = some '&') :
    ∃ s ∈ entities, s.written <+: (cs.flatMap attributeChar).drop i := by
  obtain ⟨s, hs, start, k, rfl, hat, hbegins⟩ :=
    (spelled_attributeChars cs).exists_start (by decide) h
  have htail : ∀ s ∈ entities, '&' ∉ s.written.tail := by decide
  cases k with
  | zero => exact ⟨s, hs, hbegins⟩
  | succ k =>
      rw [← List.getElem?_tail] at hat
      exact absurd (List.mem_of_getElem? hat) (htail s hs)

/-! ## Escaped texts -/

variable {flavor : Flavor}

theorem writes_lineBreak : (textCode flavor).Writes '\n' flavor.lineBreak :=
  .spelling (s := ⟨flavor.lineBreak, '\n'⟩) List.mem_cons_self

theorem writes_textChar (c : Char) : (textCode flavor).Writes c (textChar flavor c) := by
  have hspelling : ∀ s ∈ (textCode flavor).spellings,
      (textCode flavor).Writes s.meant s.written := fun s hs => .spelling hs
  unfold textChar
  split
  · exact hspelling ⟨"&amp;".toList, '&'⟩ (by cases flavor <;> decide)
  · exact hspelling ⟨"&lt;".toList, '<'⟩ (by cases flavor <;> decide)
  · exact hspelling ⟨"&gt;".toList, '>'⟩ (by cases flavor <;> decide)
  · cases flavor with
    | html => exact .plain (by decide)
    | jsx => exact hspelling ⟨"\x7b'\x7b'\x7d".toList, '\x7b'⟩ (by decide)
  · cases flavor with
    | html => exact .plain (by decide)
    | jsx => exact hspelling ⟨"\x7b'\x7d'\x7d".toList, '\x7d'⟩ (by decide)
  · rename_i hamp hless hgreater hopen hclose
    have hbraces : ∀ s ∈ quotedBraces flavor, s.meant = '\x7b' ∨ s.meant = '\x7d' := by
      cases flavor <;> decide
    refine .plain ?_
    simp only [textCode, List.mem_cons, List.mem_map, not_or]
    refine ⟨hamp, hless, hgreater, ?_⟩
    rintro ⟨s, hs, rfl⟩
    exact (hbraces s hs).elim hopen hclose

/-- An escaped text means the text, with every line break as a line feed. -/
theorem spelled_textChars (cs : List Char) :
    (textCode flavor).Spelled (textChars flavor cs) (unifyBreaks cs) := by
  fun_induction unifyBreaks cs with
  | case1 => exact .nil
  | case2 rest ih =>
      rw [textChars]
      exact .cons writes_lineBreak ih
  | case3 c rest hnotBoth ih =>
      rw [textChars]
      · split
        · rename_i hbreak
          have hfeed : (if c = '\r' then '\n' else c) = '\n' := by
            rcases hbreak with rfl | rfl <;> rfl
          rw [hfeed]
          exact .cons writes_lineBreak ih
        · rename_i hnoBreak
          rw [not_or] at hnoBreak
          rw [if_neg hnoBreak.2]
          exact .cons (writes_textChar c) ih
      · exact hnotBoth

/-- How a line is broken makes no difference in an escaped text. -/
theorem textChars_unifyBreaks (cs : List Char) :
    textChars flavor (unifyBreaks cs) = textChars flavor cs := by
  fun_induction unifyBreaks cs with
  | case1 => rfl
  | case2 rest ih =>
      rw [textChars, ← ih]
      rfl
  | case3 c rest hnotBoth ih =>
      have hcons : textChars flavor (c :: rest) =
          if c = '\n' ∨ c = '\r' then flavor.lineBreak ++ textChars flavor rest
          else textChar flavor c ++ textChars flavor rest := by
        rw [textChars]
        exact hnotBoth
      -- with no carriage return left, a line feed behind it is a break of its own
      have hne : (if c = '\r' then '\n' else c) ≠ '\r' := by
        split
        · decide
        · assumption
      rw [hcons, textChars, ih]
      · by_cases hreturn : c = '\r'
        · rw [if_pos hreturn, if_pos (.inl rfl), if_pos (.inr hreturn)]
        · rw [if_neg hreturn]
      · exact fun _ hboth => absurd hboth hne

/-- The brackets of an escaped text are those of its line breaks. -/
theorem partOf_lineBreak {cs : List Char} {i : Nat} {c : Char}
    (h : (textChars flavor cs)[i]? = some c) (hc : c = '<' ∨ c = '>') :
    PartOf flavor.lineBreak (textChars flavor cs) i := by
  have hreserved : c ∈ (textCode flavor).reserved := by
    rcases hc with rfl | rfl <;> cases flavor <;> decide
  obtain ⟨s, hs, hmem, hpart⟩ := (spelled_textChars cs).partOf hreserved h
  have hbreak : ∀ s ∈ (textCode flavor).spellings, '<' ∈ s.written ∨ '>' ∈ s.written →
      s.written = flavor.lineBreak := by
    cases flavor <;> decide
  rcases hc with rfl | rfl
  · rwa [← hbreak s hs (.inl hmem)]
  · rwa [← hbreak s hs (.inr hmem)]

/-- Where braces mean something, those of an escaped text are all quoted. -/
theorem partOf_quotedBrace {cs : List Char} {i : Nat} {c : Char}
    (h : (textChars .jsx cs)[i]? = some c) (hc : c = '\x7b' ∨ c = '\x7d') :
    ∃ s ∈ quotedBraces .jsx, PartOf s.written (textChars .jsx cs) i := by
  have hreserved : c ∈ (textCode .jsx).reserved := by
    rcases hc with rfl | rfl <;> decide
  obtain ⟨s, hs, hmem, hpart⟩ := (spelled_textChars cs).partOf hreserved h
  have hbrace : ∀ s ∈ (textCode .jsx).spellings, '\x7b' ∈ s.written ∨ '\x7d' ∈ s.written →
      s ∈ quotedBraces .jsx := by
    decide
  rcases hc with rfl | rfl
  · exact ⟨s, hbrace s hs (.inl hmem), hpart⟩
  · exact ⟨s, hbrace s hs (.inr hmem), hpart⟩

theorem textChars_eq_iff {cs ds : List Char} :
    textChars flavor cs = textChars flavor ds ↔ unifyBreaks cs = unifyBreaks ds := by
  constructor
  · intro h
    rw [← (spelled_textChars cs).decode_eq, h, (spelled_textChars ds).decode_eq]
  · intro h
    rw [← textChars_unifyBreaks cs, h, textChars_unifyBreaks]

/-! ## Escaping -/

/-- Escaped texts and values are decoded to what was escaped, a text up to how its lines are broken,
and so two of them are the same only if they mean the same. An escaped text has brackets in its line
breaks alone and no braces that are not quoted, if braces mean something; an escaped value has
neither brackets nor quotes, all its ampersands begin entities, and replacing the four characters
one after the other gives the same value. -/
theorem escapes_decoded :
    (∀ (flavor : Flavor) (text : String),
      (∀ i c, (escapeText flavor text).toList[i]? = some c → c = '<' ∨ c = '>' →
        PartOf flavor.lineBreak (escapeText flavor text).toList i) ∧
      (flavor = .jsx → ∀ i c, (escapeText flavor text).toList[i]? = some c →
        c = '\x7b' ∨ c = '\x7d' →
          ∃ s ∈ quotedBraces .jsx, PartOf s.written (escapeText flavor text).toList i) ∧
      (textCode flavor).decode (escapeText flavor text).toList = unifyBreaks text.toList) ∧
    (∀ value : String,
      (∀ c ∈ (escapeAttribute value).toList, c ≠ '"' ∧ c ≠ '<' ∧ c ≠ '>') ∧
      (∀ i, (escapeAttribute value).toList[i]? = some '&' →
        ∃ s ∈ entities, s.written <+: (escapeAttribute value).toList.drop i) ∧
      valueCode.decode (escapeAttribute value).toList = value.toList ∧
      (escapeAttribute value).toList = entities.foldl replaced value.toList) ∧
    Function.Injective escapeAttribute ∧
    ∀ (flavor : Flavor) (text other : String),
      escapeText flavor text = escapeText flavor other ↔
        unifyBreaks text.toList = unifyBreaks other.toList := by
  have hvalue : ∀ value : String,
      valueCode.decode (escapeAttribute value).toList = value.toList := by
    intro value
    rw [escapeAttribute, String.toList_ofList, (spelled_attributeChars _).decode_eq]
  refine ⟨fun flavor text => ?_, fun value => ⟨?_, ?_, hvalue value, ?_⟩, ?_, ?_⟩
  · rw [escapeText, String.toList_ofList]
    refine ⟨fun i c => partOf_lineBreak, ?_, (spelled_textChars _).decode_eq⟩
    rintro rfl i c
    exact partOf_quotedBrace
  · rw [escapeAttribute, String.toList_ofList]
    exact fun c => ne_of_mem_escaped
  · rw [escapeAttribute, String.toList_ofList]
    exact fun i => entity_of_ampersand
  · rw [escapeAttribute, String.toList_ofList, foldl_replaced_entities]
  · intro value other h
    rw [← String.toList_inj, ← hvalue value, h, hvalue other]
  · intro flavor text other
    rw [← String.toList_inj, escapeText, escapeText, String.toList_ofList, String.toList_ofList,
      textChars_eq_iff]

/-- What looks like a line break, a quoted brace and an entity, and lines broken in two ways. -/
def lookalike : String := "<br />\r\n\r\x7b'\x7b'\x7d&amp;"

theorem escapes_decoded_lookalike :
    let written := (escapeText .jsx lookalike).toList
    written = ("&lt;br /&gt;<br /><br />" ++
      "\x7b'\x7b'\x7d'\x7b'\x7b'\x7d'\x7b'\x7d'\x7d&amp;amp;").toList ∧
    (written[18]? = some '<' ∧ PartOf Flavor.jsx.lineBreak written 18) ∧
    (written[28]? = some '\x7d' ∧ ∃ s ∈ quotedBraces .jsx, PartOf s.written written 28) ∧
    (textCode .jsx).decode written = "<br />\n\n\x7b'\x7b'\x7d&amp;".toList ∧
    ((escapeAttribute lookalike).toList[0]? = some '&' ∧
      ∃ s ∈ entities, s.written <+: (escapeAttribute lookalike).toList.drop 0) ∧
    '<' ∈ lookalike.toList ∧ '<' ∉ (escapeAttribute lookalike).toList := by
  intro written
  obtain ⟨htexts, hvalues, -⟩ := escapes_decoded
  obtain ⟨hbrackets, hbraces, hdecoded⟩ := htexts .jsx lookalike
  obtain ⟨hmarks, hentities, -, -⟩ := hvalues lookalike
  have hless : written[18]? = some '<' := by decide
  have hclose : written[28]? = some '\x7d' := by decide
  have hamp : (escapeAttribute lookalike).toList[0]? = some '&' := by decide
  refine ⟨by decide, ⟨hless, hbrackets _ _ hless (.inl rfl)⟩,
    ⟨hclose, hbraces rfl _ _ hclose (.inr rfl)⟩, ?_, ⟨hamp, hentities _ hamp⟩, by decide,
    fun hmem => (hmarks _ hmem).2.1 rfl⟩
  rw [hdecoded]
  decide

end SceneMarkup.Markup
