/-
  SceneMarkup/Proofs/DesignLink/Id.lean --- the id of a node among the parameters of a link.

  WHAT THIS FILE IS FOR.  Each colon of an id is written in one of four ways.  Letters and
  digits take no part in any of them, so that the groups between the colons are left as they
  are.  The parameters in front of the id are passed over, and what stands behind it, be it
  a parameter or a fragment, does not get into it.
-/
import SceneMarkup.Proofs.DesignLink.Key

set_option autoImplicit false

namespace SceneMarkup.DesignLink

/-! ## Ids -/

/-- The ways in which a colon of an id is written. -/
inductive Colon where
  | plain
  | hyphen
  | upperCode
  | lowerCode

def Colon.text : Colon → List Char
  | .plain => [':']
  | .hyphen => ['-']
  | .upperCode => ['%', '3', 'A']
  | .lowerCode => ['%', '3', 'a']

/-- An id as it is written in a link: groups of letters and digits, with colons between them. -/
structure WrittenId where
  first : List Char
  others : List (Colon × List Char)
  first_ne_nil : first ≠ []
  first_alphanum : ∀ c ∈ first, c.isAlphanum = true
  others_alphanum : ∀ group ∈ others, ∀ c ∈ group.2, c.isAlphanum = true

namespace WrittenId

/-- The groups, each colon in its own way. -/
def text (id : WrittenId) : List Char :=
  id.first ++ id.others.flatMap fun group => group.1.text ++ group.2

/-- The id itself: the groups joined by colons. -/
def joined (id : WrittenId) : List Char :=
  List.intercalate [':'] (id.first :: id.others.map Prod.snd)

end WrittenId

theorem decodeId_colon (colon : Colon) (rest : List Char) :
    decodeId (colon.text ++ rest) = ':' :: decodeId rest := by
  cases colon with
  | plain => rfl
  | hyphen => rfl
  | upperCode => rfl
  | lowerCode => rfl

theorem decodeId_cons {c : Char} (hpercent : c ≠ '%') (hhyphen : c ≠ '-') (rest : List Char) :
    decodeId (c :: rest) = c :: decodeId rest := by
  rw [decodeId]
  · exact fun _ h _ => hpercent h
  · exact fun _ h _ => hpercent h
  · exact hhyphen

theorem ne_of_isAlphanum {c d : Char} (hc : c.isAlphanum = true) (hd : d.isAlphanum = false) :
    c ≠ d := by
  rintro rfl
  rw [hc] at hd
  cases hd

theorem decodeId_append {group : List Char} (h : ∀ c ∈ group, c.isAlphanum = true)
    (rest : List Char) : decodeId (group ++ rest) = group ++ decodeId rest := by
  induction group with
  | nil => rfl
  | cons c group ih =>
      rw [List.forall_mem_cons] at h
      rw [List.cons_append, decodeId_cons (ne_of_isAlphanum h.1 rfl) (ne_of_isAlphanum h.1 rfl),
        ih h.2, List.cons_append]

theorem decodeId_others {others : List (Colon × List Char)}
    (h : ∀ group ∈ others, ∀ c ∈ group.2, c.isAlphanum = true) :
    decodeId (others.flatMap fun group => group.1.text ++ group.2) =
      others.flatMap fun group => ':' :: group.2 := by
  induction others with
  | nil => rfl
  | cons group others ih =>
      rw [List.forall_mem_cons] at h
      rw [List.flatMap_cons, List.append_assoc, decodeId_colon, decodeId_append h.1, ih h.2,
        List.flatMap_cons, List.cons_append]

theorem WrittenId.joined_eq (id : WrittenId) :
    id.joined = id.first ++ id.others.flatMap fun group => ':' :: group.2 := by
  rw [joined]
  generalize id.first = first
  induction id.others generalizing first with
  | nil => simp
  | cons group others ih =>
      rw [List.map_cons, List.intercalate_cons_cons, ih, List.flatMap_cons, List.append_assoc]
      rfl

/-- A written id is decoded to the groups joined by colons. -/
theorem WrittenId.decodeId_text (id : WrittenId) : decodeId id.text = id.joined := by
  rw [text, decodeId_append id.first_alphanum, decodeId_others id.others_alphanum, joined_eq]

theorem Colon.mem_text (colon : Colon) :
    ∀ c ∈ colon.text, c.isAlphanum = true ∨ c ∈ [':', '-', '%'] := by
  cases colon with
  | plain => simp [text]
  | hyphen => simp [text]
  | upperCode => simp [text]
  | lowerCode => simp [text]

/-- What a written id consists of. -/
theorem WrittenId.mem_text {id : WrittenId} {c : Char} (h : c ∈ id.text) :
    c.isAlphanum = true ∨ c ∈ [':', '-', '%'] := by
  obtain hfirst | hothers := List.mem_append.1 h
  · exact .inl (id.first_alphanum c hfirst)
  · obtain ⟨group, hmem, hgroup⟩ := List.mem_flatMap.1 hothers
    obtain hc | hc := List.mem_append.1 hgroup
    · exact group.1.mem_text c hc
    · exact .inl (id.others_alphanum group hmem c hc)

theorem WrittenId.ne_of_mem_text {id : WrittenId} {c d : Char} (h : c ∈ id.text)
    (hd : d.isAlphanum = false) (hother : d ∉ [':', '-', '%']) : c ≠ d := by
  rintro rfl
  obtain halphanum | hmark := id.mem_text h
  · rw [hd] at halphanum
    cases halphanum
  · exact hother hmark

theorem WrittenId.text_ne_nil (id : WrittenId) : id.text ≠ [] := by
  rw [WrittenId.text]
  exact List.append_ne_nil_of_left_ne_nil id.first_ne_nil _

/-! ## Replacements -/

/-- A text with a character in the place of each occurrence of a mark; as many characters as given
still belong to the last occurrence. -/
def replaced (mark : List Char) (new : Char) : Nat → List Char → List Char
  | _, [] => []
  | n + 1, _ :: rest => replaced mark new n rest
  | 0, c :: rest =>
      if mark.isPrefixOf (c :: rest) then new :: replaced mark new (mark.length - 1) rest
      else c :: replaced mark new 0 rest

theorem replaced_cons_of_ne {m c : Char} (h : m ≠ c) (mark : List Char) (new : Char)
    (rest : List Char) :
    replaced (m :: mark) new 0 (c :: rest) = c :: replaced (m :: mark) new 0 rest := by
  rw [replaced, if_neg (by simp [h])]

/-- A replacement brings only the new character to the front. -/
theorem mem_head?_of_replaced {mark : List Char} {new : Char} {cs : List Char} {c : Char}
    (hne : c ≠ new) (h : c ∈ (replaced mark new 0 cs).head?) : c ∈ cs.head? := by
  cases cs with
  | nil => exact h
  | cons d cs =>
      rw [replaced] at h
      split at h
      · exact absurd (Option.some.inj h).symm hne
      · exact h

/-- Two characters in front of a text, neither of them new and the first not of the mark, were
there before a replacement. -/
theorem exists_of_replaced {m new a b : Char} {mark cs rest : List Char} (hm : m ≠ a)
    (ha : a ≠ new) (hb : b ≠ new) (h : replaced (m :: mark) new 0 cs = a :: b :: rest) :
    ∃ rest', cs = a :: b :: rest' := by
  have hfirst : a ∈ cs.head? := mem_head?_of_replaced ha (by rw [h]; rfl)
  obtain ⟨cs, rfl⟩ := List.head?_eq_some_iff.1 hfirst
  rw [replaced_cons_of_ne hm] at h
  have hsecond : b ∈ cs.head? :=
    mem_head?_of_replaced hb (by rw [List.tail_eq_of_cons_eq h]; rfl)
  obtain ⟨cs, rfl⟩ := List.head?_eq_some_iff.1 hsecond
  exact ⟨cs, rfl⟩

/-- To decode an id is to replace the two codes of a colon and then the hyphens. -/
theorem decodeId_eq_replaced (cs : List Char) :
    decodeId cs = replaced ['-'] ':' 0 (replaced ['%', '3', 'a'] ':' 0
      (replaced ['%', '3', 'A'] ':' 0 cs)) := by
  fun_induction decodeId cs with
  | case1 rest ih => rw [ih]; rfl
  | case2 rest ih => rw [ih]; rfl
  | case3 rest ih => rw [ih]; rfl
  | case4 c rest hupper hlower hhyphen ih =>
      by_cases hpercent : c = '%'
      · -- no code begins here, and the first replacement puts none behind the `%`
        subst hpercent
        have hfirst : replaced ['%', '3', 'A'] ':' 0 ('%' :: rest) =
            '%' :: replaced ['%', '3', 'A'] ':' 0 rest := by
          rw [replaced, if_neg]
          intro hprefix
          obtain ⟨tail, htail⟩ := List.isPrefixOf_iff_prefix.1 hprefix
          exact hupper tail rfl (List.tail_eq_of_cons_eq htail).symm
        have hsecond : replaced ['%', '3', 'a'] ':' 0
              ('%' :: replaced ['%', '3', 'A'] ':' 0 rest) =
            '%' :: replaced ['%', '3', 'a'] ':' 0 (replaced ['%', '3', 'A'] ':' 0 rest) := by
          rw [replaced, if_neg]
          intro hprefix
          obtain ⟨tail, htail⟩ := List.isPrefixOf_iff_prefix.1 hprefix
          obtain ⟨tail', htail'⟩ := exists_of_replaced (by decide) (by decide) (by decide)
            (List.tail_eq_of_cons_eq htail).symm
          exact hlower tail' rfl htail'
        rw [ih, hfirst, hsecond, replaced_cons_of_ne (by decide)]
      · rw [ih, replaced_cons_of_ne (Ne.symm hpercent), replaced_cons_of_ne (Ne.symm hpercent),
          replaced_cons_of_ne (Ne.symm hhyphen)]
  | case5 => rfl

/-! ## Parameters -/

/-- What stands in front of a text belongs to the first of its parts. -/
theorem partsBetween_append {mark : Char} {cs : List Char} (hcs : mark ∉ cs)
    {rest part : List Char} {others : List (List Char)}
    (h : partsBetween mark rest = part :: others) :
    partsBetween mark (cs ++ rest) = (cs ++ part) :: others := by
  induction cs with
  | nil => exact h
  | cons c cs ih =>
      rw [List.mem_cons, not_or] at hcs
      rw [List.cons_append, partsBetween, if_neg (Ne.symm hcs.1), ih hcs.2]
      rfl

theorem partsBetween_mark (mark : Char) (rest : List Char) :
    partsBetween mark (mark :: rest) = [] :: partsBetween mark rest := by
  rw [partsBetween, if_pos rfl]

theorem afterMark?_append {mark : Char} {cs : List Char} (hcs : mark ∉ cs) (rest : List Char) :
    afterMark? mark (cs ++ mark :: rest) = some rest := by
  have hpass : ∀ c ∈ cs, (c != mark) = true := by
    intro c hc
    rw [bne_iff_ne]
    rintro rfl
    exact hcs hc
  rw [afterMark?, List.dropWhile_append_of_pos hpass, List.dropWhile_cons_of_neg (by simp)]

/-- What the parameter with the id begins with. -/
def idName : List Char := "node-id=".toList

theorem idParameter?_eq_none {parameter : List Char} (h : ¬ idName <+: parameter) :
    idParameter? parameter = none := by
  have hnone : "node-id=".toList.isPrefixOf? parameter = none := by
    rw [Option.eq_none_iff_forall_ne_some]
    intro rest hrest
    exact h ⟨rest, List.isPrefixOf?_eq_some_iff_append_eq.1 hrest⟩
  rw [idParameter?, hnone]
  rfl

/-- The value of the parameter ends where a fragment begins. -/
theorem idParameter?_text (id : WrittenId) {tail : List Char} (htail : ∀ c ∈ tail.head?, c = '#') :
    idParameter? (idName ++ (id.text ++ tail)) = some id.text := by
  have hprefix : "node-id=".toList.isPrefixOf? (idName ++ (id.text ++ tail)) =
      some (id.text ++ tail) := List.isPrefixOf?_eq_some_iff_append_eq.2 rfl
  have hvalue : (id.text ++ tail).takeWhile (· != '#') = id.text := by
    refine takeWhile_eq_of_maximal (fun c hc => ?_) fun c hc => ?_
    · rw [bne_iff_ne]
      exact id.ne_of_mem_text hc rfl (by decide)
    · rw [htail c hc]
      rfl
  rw [idParameter?, hprefix, Option.bind_eq_bind, Option.bind_some]
  dsimp only
  rw [hvalue, if_neg (by simpa using id.text_ne_nil)]

/-- What stands in front of a mark, or of a fragment, belongs to a part up to there. -/
theorem exists_partsBetween {rest : List Char} (h : ∀ c ∈ rest.head?, c = '&' ∨ c = '#') :
    ∃ part others, partsBetween '&' rest = part :: others ∧ ∀ c ∈ part.head?, c = '#' := by
  cases rest with
  | nil => exact ⟨[], [], rfl, fun _ hc => nomatch hc⟩
  | cons c rest =>
      obtain rfl | rfl := h c rfl
      · exact ⟨[], _, partsBetween_mark '&' rest, fun _ hc => nomatch hc⟩
      · rw [partsBetween, if_neg (by decide)]
        cases partsBetween '&' rest with
        | nil => exact ⟨['#'], [], rfl, fun _ hc => (Option.some.inj hc).symm⟩
        | cons part others =>
            exact ⟨'#' :: part, others, rfl, fun _ hc => (Option.some.inj hc).symm⟩

/-- The value of the first parameter, up to whatever stands behind it. -/
theorem findSome?_idParameter?_first (id : WrittenId) {rest : List Char}
    (hrest : ∀ c ∈ rest.head?, c = '&' ∨ c = '#') :
    (partsBetween '&' (idName ++ id.text ++ rest)).findSome? idParameter? = some id.text := by
  obtain ⟨part, others, hparts, hpart⟩ := exists_partsBetween hrest
  have hmark : '&' ∉ idName ++ id.text := by
    rw [List.mem_append, not_or]
    exact ⟨by decide, fun h => id.ne_of_mem_text h rfl (by decide) rfl⟩
  rw [partsBetween_append hmark hparts, List.append_assoc, List.findSome?_cons,
    idParameter?_text id hpart]

/-- The value is found behind parameters that are not its own. -/
theorem findSome?_idParameter? {before : List (List Char)}
    (hbefore : ∀ parameter ∈ before, '&' ∉ parameter ∧ ¬ idName <+: parameter)
    (id : WrittenId) (after : List (List Char)) {tail : List Char}
    (htail : ∀ c ∈ tail.head?, c = '#') :
    (partsBetween '&'
      (List.intercalate ['&'] (before ++ (idName ++ id.text) :: after) ++ tail)).findSome?
        idParameter? = some id.text := by
  induction before with
  | nil =>
      cases after with
      | nil =>
          rw [List.nil_append, List.intercalate_singleton]
          exact findSome?_idParameter?_first id fun c hc => .inr (htail c hc)
      | cons parameter after =>
          rw [List.nil_append, List.intercalate_cons_cons, List.append_assoc, List.append_assoc,
            List.singleton_append]
          refine findSome?_idParameter?_first id fun c hc => .inl ?_
          exact (Option.some.inj hc).symm
  | cons parameter before ih =>
      rw [List.forall_mem_cons] at hbefore
      obtain ⟨next, rest, hnext⟩ : ∃ next rest,
          before ++ (idName ++ id.text) :: after = next :: rest :=
        List.exists_cons_of_ne_nil (List.append_ne_nil_of_right_ne_nil _ (List.cons_ne_nil _ _))
      have hrest := ih hbefore.2
      rw [hnext] at hrest
      rw [List.cons_append, hnext, List.intercalate_cons_cons, List.append_assoc, List.append_assoc,
        List.singleton_append, partsBetween_append hbefore.1.1 (partsBetween_mark '&' _),
        List.append_nil, List.findSome?_cons, idParameter?_eq_none hbefore.1.2]
      exact hrest

end SceneMarkup.DesignLink
