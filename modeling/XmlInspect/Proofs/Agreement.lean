import XmlInspect.Proofs.Doctype
import XmlInspect.Proofs.Growth

/-!
# Where the two readings agree

A text is read once for its tree and once for its tokens, by rules that differ: in what counts as a
blank, in where a name ends, in how the end of a tag is found. Here both are held against each other
on the same text. Whenever they find the same names in a tag, they also stop at the same place and
find the same attributes. With comments, sections and instructions they always do, and with runs of
text whenever the references in it can be replaced.
-/

namespace XmlInspect

open Markup

/-! ## Steps of the scan, forwards -/

namespace Cursor

variable {offset start : Nat} {c : Char} {blanks key content rest : List Char}

theorem skipBlanks_append (hblanks : ∀ c ∈ blanks, Text.isAsciiBlank c = true)
    (hc : Text.isAsciiBlank c = false) :
    skipBlanks ⟨offset, blanks ++ c :: rest⟩ =
      ⟨offset + Text.byteSize blanks, c :: rest⟩ := by
  have htake : (blanks ++ c :: rest).takeWhile Text.isAsciiBlank = blanks := by
    rw [List.takeWhile_append_of_pos hblanks, List.takeWhile_cons_of_neg (by simp [hc]),
      List.append_nil]
  have hdrop : (blanks ++ c :: rest).dropWhile Text.isAsciiBlank = c :: rest := by
    rw [List.dropWhile_append_of_pos hblanks, List.dropWhile_cons_of_neg (by simp [hc])]
  rw [skipBlanks, htake, hdrop, byteSize_of_isAsciiBlank hblanks]

theorem name_append (hne : key ≠ []) (hkey : ∀ c ∈ key, endsName c = false)
    (hc : endsName c = true) :
    name ⟨offset, key ++ c :: rest⟩ =
      .ok (⟨offset, key⟩, ⟨offset + Text.byteSize key, c :: rest⟩) := by
  cases key with
  | nil => exact absurd rfl hne
  | cons k key =>
    have hk := hkey k List.mem_cons_self
    have hfree : ∀ d ∈ key, (!endsName d) = true := fun d hd ↦ by
      simp [hkey d (List.mem_cons_of_mem k hd)]
    have htake : (key ++ c :: rest).takeWhile (!endsName ·) = key := by
      rw [List.takeWhile_append_of_pos hfree, List.takeWhile_cons_of_neg (by simp [hc]),
        List.append_nil]
    have hdrop : (key ++ c :: rest).dropWhile (!endsName ·) = c :: rest := by
      rw [List.dropWhile_append_of_pos hfree, List.dropWhile_cons_of_neg (by simp [hc])]
    simp only [name, List.cons_append, hk, Bool.false_eq_true, if_false, htake, hdrop]
    rfl

private theorem value_append {quote : Char} (hquote : quote = '"' ∨ quote = '\'')
    (hcut : Text.cutAt [quote] (content ++ quote :: rest) = some (content, rest)) :
    value ⟨offset, quote :: (content ++ quote :: rest)⟩ =
      .ok (⟨offset, quote :: content ++ [quote]⟩,
        ⟨offset + Text.byteSize (quote :: content ++ [quote]), rest⟩) := by
  have hq : (quote == '"' || quote == '\'') = true := by simpa using hquote
  simp only [value, hq, if_true, hcut]
  rfl

theorem endsName_of_isAsciiBlank (h : Text.isAsciiBlank c = true) : endsName c = true := by
  simp [endsName, h]

private theorem isAsciiBlank_of_endsName (h : endsName c = false) :
    Text.isAsciiBlank c = false := by
  by_contra hc
  rw [endsName_of_isAsciiBlank (by simpa using hc)] at h
  cases h

theorem attr_append {blanks' : List Char} {quote : Char} (hne : key ≠ [])
    (hkey : ∀ c ∈ key, endsName c = false)
    (hblanks : ∀ c ∈ blanks, Text.isAsciiBlank c = true)
    (hblanks' : ∀ c ∈ blanks', Text.isAsciiBlank c = true)
    (hquote : quote = '"' ∨ quote = '\'')
    (hcut : Text.cutAt [quote] (content ++ quote :: rest) = some (content, rest)) (offset : Nat) :
    attr ⟨offset, key ++ (blanks ++ '=' :: (blanks' ++ quote :: (content ++ quote :: rest)))⟩ =
      .ok (⟨⟨offset, key⟩, ⟨offset + Text.byteSize (key ++ blanks ++ '=' :: blanks'),
          quote :: content ++ [quote]⟩⟩,
        ⟨offset + Text.byteSize (key ++ blanks ++ '=' :: blanks' ++
          (quote :: content ++ [quote])), rest⟩) := by
  have hname : name ⟨offset, key ++ (blanks ++ '=' :: (blanks' ++
      quote :: (content ++ quote :: rest)))⟩ = .ok (⟨offset, key⟩, ⟨offset + Text.byteSize key,
        blanks ++ '=' :: (blanks' ++ quote :: (content ++ quote :: rest))⟩) := by
    cases blanks with
    | nil => exact name_append hne hkey rfl
    | cons b blanks =>
      exact name_append hne hkey (endsName_of_isAsciiBlank (hblanks b List.mem_cons_self))
  have hq : Text.isAsciiBlank quote = false := by rcases hquote with rfl | rfl <;> rfl
  have hone : ('=' : Char).utf8Size = 1 := rfl
  simp only [attr, hname, skipBlanks_append hblanks (c := '=') rfl, skipBlanks_append hblanks' hq,
    value_append hquote hcut]
  simp only [Text.byteSize_append, Text.byteSize_cons, hone, Nat.add_assoc]

end Cursor

/-! ## The attributes of a tag -/

namespace Markup.RawAttribute

variable {unique : Bool} {seen : List RawAttribute} {offset stop : Nat} {first : Char}
  {text rest value : List Char} {attr : RawAttribute}

private theorem readValue_eq_ok (h : readValue offset text = .ok (value, stop, rest)) :
    ∃ blanks quote, (∀ c ∈ blanks, Text.isXmlBlank c = true) ∧ (quote = '"' ∨ quote = '\'') ∧
      text = blanks ++ quote :: (value ++ quote :: rest) ∧
      Text.cutAt [quote] (value ++ quote :: rest) = some (value, rest) := by
  have hsplit : text = text.takeWhile Text.isXmlBlank ++ (skipBlanks offset text).2 :=
    List.takeWhile_append_dropWhile.symm
  unfold readValue at h
  split at h
  · cases h
  · rename_i quote after hskip
    rw [hskip] at hsplit
    split at h
    · rename_i hquote
      split at h
      · rename_i hcut
        cases h
        have hafter : after = value ++ quote :: rest := by
          rw [Text.eq_append_of_cutAt hcut]
          simp
        refine ⟨text.takeWhile Text.isXmlBlank, quote, fun c hc ↦ List.mem_takeWhile_imp hc,
          by simpa using hquote, ?_, ?_⟩
        · rw [← hafter]
          exact hsplit
        · rw [← hafter]
          exact hcut
      · cases h
    · cases h

private theorem read_eq_ok (h : read unique seen offset first text = .ok (attr, stop, rest)) :
    ∃ blanks blanks' quote, (∀ c ∈ blanks, Text.isXmlBlank c = true) ∧
      (∀ c ∈ blanks', Text.isXmlBlank c = true) ∧ (quote = '"' ∨ quote = '\'') ∧
      attr.key ≠ [] ∧
      first :: text = attr.key ++ (blanks ++ '=' :: (blanks' ++
        quote :: (attr.value ++ quote :: rest))) ∧
      Text.cutAt [quote] (attr.value ++ quote :: rest) = some (attr.value, rest) := by
  unfold read at h
  dsimp only at h
  split at h
  · rename_i after hskip
    split at h
    · cases h
    · split at h
      · rename_i hvalue
        cases h
        obtain ⟨blanks', quote, hblanks', hquote, hafter, hcut⟩ := readValue_eq_ok hvalue
        refine ⟨(text.dropWhile (!endsKey ·)).takeWhile Text.isXmlBlank, blanks', quote,
          fun c hc ↦ List.mem_takeWhile_imp hc, hblanks', hquote, List.cons_ne_nil _ _, ?_, hcut⟩
        have hdrop : (text.dropWhile (!endsKey ·)).dropWhile Text.isXmlBlank = '=' :: after :=
          congrArg Prod.snd hskip
        rw [← hafter, ← hdrop, List.takeWhile_append_dropWhile, List.cons_append,
          List.takeWhile_append_dropWhile]
      · cases h
  · cases h

end Markup.RawAttribute

namespace Cursor

/-- A lexeme of a tag spells an attribute. -/
def Spells (raw : RawAttribute) (attr : AttributeLexeme) : Prop :=
  attr.name.text = raw.key ∧
    ∃ quote, (quote = '"' ∨ quote = '\'') ∧ attr.value.text = quote :: raw.value ++ [quote]

variable {start offset : Nat} {cursor next last : Cursor} {selfClosing unique : Bool} {c : Char}
  {rest text : List Char} {attr : AttributeLexeme} {attrs : List AttributeLexeme}
  {seen raws : List RawAttribute}

private theorem tagEnd_stop (h : cursor.skipBlanks = ⟨offset, tagStop selfClosing ++ rest⟩) :
    cursor.tagEnd start =
      .ok ([], selfClosing, ⟨offset + Text.byteSize (tagStop selfClosing), rest⟩) := by
  cases selfClosing with
  | true =>
    have hrest : tagStop true ++ rest = '/' :: '>' :: rest := rfl
    rw [hrest] at h
    unfold tagEnd
    split <;> simp_all
    rfl
  | false =>
    have hrest : tagStop false ++ rest = '>' :: rest := rfl
    rw [hrest] at h
    unfold tagEnd
    split <;> simp_all
    rfl

private theorem tagEnd_attr (h : cursor.skipBlanks = ⟨offset, c :: rest⟩) (hc : endsName c = false)
    (hattr : Cursor.attr ⟨offset, c :: rest⟩ = .ok (attr, next))
    (htail : next.tagEnd start = .ok (attrs, selfClosing, last)) :
    cursor.tagEnd start = .ok (attr :: attrs, selfClosing, last) := by
  rw [tagEnd]
  split
  all_goals
    rename_i hskip
    rw [h] at hskip
    cases hskip
  · cases hc
  · cases hc
  · split
    · rename_i heq
      rw [hattr] at heq
      cases heq
    · rename_i heq
      rw [hattr] at heq
      cases heq
      rw [htail]

/-- What is blank to the one reading is blank to the other. -/
theorem skipBlanks_tagStop (hblanks : ∀ c ∈ text, Text.isXmlBlank c = true) (offset : Nat)
    (selfClosing : Bool) (rest : List Char) :
    skipBlanks ⟨offset, text ++ (tagStop selfClosing ++ rest)⟩ =
      ⟨offset + Text.byteSize text, tagStop selfClosing ++ rest⟩ := by
  have hascii := fun c hc ↦ Text.isAsciiBlank_of_isXmlBlank (hblanks c hc)
  cases selfClosing with
  | true => exact skipBlanks_append (c := '/') hascii rfl
  | false => exact skipBlanks_append (c := '>') hascii rfl

private theorem skipBlanks_of_dropWhile {tail : List Char}
    (h : text.dropWhile Text.isXmlBlank = c :: tail) (hc : endsName c = false) (offset : Nat)
    (more : List Char) :
    skipBlanks ⟨offset, text ++ more⟩ =
      ⟨offset + Text.byteSize (text.takeWhile Text.isXmlBlank), c :: (tail ++ more)⟩ := by
  have hsplit : text = text.takeWhile Text.isXmlBlank ++ c :: tail := by
    rw [← h, List.takeWhile_append_dropWhile]
  nth_rewrite 1 [hsplit]
  rw [List.append_assoc, List.cons_append]
  exact skipBlanks_append
    (fun c hc ↦ Text.isAsciiBlank_of_isXmlBlank (List.mem_takeWhile_imp hc))
    (isAsciiBlank_of_endsName hc)

/-- The scan of a tag finds the attributes that were read from it, if nothing in their names ends a
name for the scan. -/
theorem tagEnd_of_readAll {position : Nat}
    (h : RawAttribute.readAll unique seen position text = (raws, none))
    (hkeys : ∀ raw ∈ raws, ∀ c ∈ raw.key, endsName c = false) (start offset : Nat)
    (selfClosing : Bool) (rest : List Char) :
    ∃ attrs stop, tagEnd start ⟨offset, text ++ (tagStop selfClosing ++ rest)⟩ =
      .ok (attrs, selfClosing, ⟨stop, rest⟩) ∧ List.Forall₂ Spells raws attrs := by
  fun_induction RawAttribute.readAll unique seen position text generalizing raws offset with
  | case1 seen position text position' hskip =>
    cases h
    have hblanks := List.dropWhile_eq_nil_iff.1 (congrArg Prod.snd hskip)
    exact ⟨[], _, tagEnd_stop (skipBlanks_tagStop hblanks offset selfClosing rest), .nil⟩
  | case2 => cases h
  | case3 seen position text position' first tail hskip raw stop after hread hlt raws' fault hrest
      ih =>
    cases h
    obtain ⟨blanks, blanks', quote, hblanks, hblanks', hquote, hne, htext, hcut⟩ :=
      RawAttribute.read_eq_ok hread
    have hkey := hkeys raw List.mem_cons_self
    have hfirst : endsName first = false := by
      cases hraw : raw.key with
      | nil => exact absurd hraw hne
      | cons k key =>
        rw [hraw, List.cons_append] at htext
        rw [(List.cons.inj htext).1]
        exact hkey k (by rw [hraw]; exact List.mem_cons_self)
    -- The scan stands before the key, and reads the attribute and then the ones after it.
    have hskip' := skipBlanks_of_dropWhile (congrArg Prod.snd hskip) hfirst offset
      (tagStop selfClosing ++ rest)
    have hcut' := Text.cutAt_append hcut (tagStop selfClosing ++ rest)
    rw [List.append_assoc, List.cons_append] at hcut'
    have hattr := attr_append hne hkey (fun c hc ↦ Text.isAsciiBlank_of_isXmlBlank (hblanks c hc))
      (fun c hc ↦ Text.isAsciiBlank_of_isXmlBlank (hblanks' c hc)) hquote hcut'
      (offset + Text.byteSize (text.takeWhile Text.isXmlBlank))
    have hwhole : first :: (tail ++ (tagStop selfClosing ++ rest)) =
        raw.key ++ (blanks ++ '=' :: (blanks' ++ quote :: (raw.value ++ quote :: (after ++
          (tagStop selfClosing ++ rest))))) := by
      rw [← List.cons_append, htext]
      simp
    rw [← hwhole] at hattr
    obtain ⟨attrs, stop', htail, hspells⟩ := ih hrest
      (fun raw hraw ↦ hkeys raw (List.mem_cons_of_mem _ hraw)) _
    exact ⟨_, stop', tagEnd_attr hskip' hfirst hattr htail,
      .cons ⟨rfl, quote, hquote, rfl⟩ hspells⟩

/-! ## Tags -/

theorem endsName_of_openTag {name : Lexeme}
    (h : openTag start text = .ok (.openTag name attrs selfClosing, next)) :
    ∀ attr ∈ attrs, ∀ c ∈ attr.name.text, endsName c = false := by
  obtain ⟨_, _, _, cursor, heq, -, htag⟩ := openTag_eq_ok h
  cases heq
  exact (tagEnd_eq_ok htag).2.1

/-- Both readings of an opening tag end at the same place if they found the same name in it, and
then they found the same attributes. -/
theorem openTag_agrees {name : Lexeme} {content : List Char} {selfClosing' : Bool} {position : Nat}
    (h : openTag start text = .ok (.openTag name attrs selfClosing', next))
    (htext : text = content ++ (tagStop selfClosing ++ rest))
    (hname : name.text = content.takeWhile (!Text.isXmlBlank ·))
    (hread : RawAttribute.readAll unique seen position (content.dropWhile (!Text.isXmlBlank ·)) =
      (raws, none))
    (hkeys : ∀ raw ∈ raws, ∀ c ∈ raw.key, endsName c = false) :
    selfClosing' = selfClosing ∧ next.rest = rest ∧ List.Forall₂ Spells raws attrs := by
  obtain ⟨_, _, _, cursor, heq, hname', htag⟩ := openTag_eq_ok h
  cases heq
  have hrest : cursor.rest =
      content.dropWhile (!Text.isXmlBlank ·) ++ (tagStop selfClosing ++ rest) := by
    have hmoves : text = name.text ++ cursor.rest := (name_eq_ok hname').2.1.rest_eq
    rw [htext, hname] at hmoves
    nth_rewrite 1 [← List.takeWhile_append_dropWhile (p := (!Text.isXmlBlank ·)) (l := content)]
      at hmoves
    rw [List.append_assoc] at hmoves
    exact (List.append_cancel_left hmoves).symm
  obtain ⟨attrs', stop, htag', hspells⟩ :=
    tagEnd_of_readAll hread hkeys start cursor.offset selfClosing rest
  rw [← hrest] at htag'
  cases htag.symm.trans htag'
  exact ⟨rfl, rfl, hspells⟩

private theorem exists_trimEnd_append {drop : Char → Bool} (text : List Char) :
    ∃ blanks, text = Text.trimEnd drop text ++ blanks ∧ ∀ c ∈ blanks, drop c = true := by
  refine ⟨(text.reverse.takeWhile drop).reverse, ?_, ?_⟩
  · rw [Text.trimEnd, ← List.reverse_append, List.takeWhile_append_dropWhile, List.reverse_reverse]
  · intro c hc
    exact List.mem_takeWhile_imp (List.mem_reverse.1 hc)

/-- A name has no blanks in it, so what was trimmed is all that follows it. -/
theorem exists_trimName_append {content : List Char} (hne : trimName content ≠ [])
    (hfree : ∀ c ∈ trimName content, endsName c = false) :
    ∃ blanks, content = trimName content ++ blanks ∧ ∀ c ∈ blanks, Text.isXmlBlank c = true := by
  by_cases hall : content.all Text.isXmlBlank = true
  · rw [trimName, if_pos hall] at hne hfree
    obtain ⟨c, hc⟩ := List.exists_mem_of_ne_nil _ hne
    have hblank := List.all_eq_true.1 hall c hc
    have hends := hfree c hc
    rw [endsName_of_isAsciiBlank (Text.isAsciiBlank_of_isXmlBlank hblank)] at hends
    cases hends
  · rw [trimName, if_neg hall]
    exact exists_trimEnd_append content

/-- Both readings of a closing tag end at the same place if they found the same name in it. -/
theorem closeTag_agrees {name : Lexeme} {content : List Char}
    (h : closeTag start (content ++ '>' :: rest) = .ok (.closeTag name, next))
    (hname : name.text = trimName content) : next.rest = rest := by
  obtain ⟨_, cursor, heq, hname', hafter⟩ := closeTag_eq_ok h
  cases heq
  obtain ⟨-, hmoves, hne, hfree⟩ := name_eq_ok hname'
  have htext : content ++ '>' :: rest = name.text ++ cursor.rest := hmoves.rest_eq
  rw [hname] at hne hfree htext
  obtain ⟨blanks, hcontent, hblanks⟩ := exists_trimName_append hne hfree
  have hdrop : cursor.rest.dropWhile Text.isAsciiBlank = '>' :: next.rest := by
    nth_rewrite 1 [hafter]
    rw [List.dropWhile_append_of_pos fun c hc ↦ List.mem_takeWhile_imp hc]
    rfl
  nth_rewrite 1 [hcontent] at htext
  rw [List.append_assoc] at htext
  rw [← List.append_cancel_left htext, List.dropWhile_append_of_pos
    fun c hc ↦ Text.isAsciiBlank_of_isXmlBlank (hblanks c hc)] at hdrop
  exact (List.cons.inj hdrop).2.symm

end Cursor

/-! ## Markup -/

namespace Markup

/-- What a piece of markup is cut from: `text` follows its `<`, and `rest` is left. -/
def Form.Cuts (text rest : List Char) : Form → Prop
  | .text => False
  | .openTag content selfClosing => text = content ++ (Cursor.tagStop selfClosing ++ rest) ∧
    ∀ c ∈ text.head?, c ≠ '!' ∧ c ≠ '?' ∧ c ≠ '/'
  | .closeTag name => ∃ content, text = '/' :: (content ++ '>' :: rest) ∧ name = trimName content
  | .comment content => ∃ after, text = "!--".toList ++ after ∧
    Text.cutAt "-->".toList after = some (content, rest)
  | .cdata content => ∃ after, text = "![CDATA[".toList ++ after ∧
    Text.cutAt "]]>".toList after = some (content, rest)
  | .doctype content => ∃ c tail after front, text = '!' :: c :: tail ∧ c.toUpper = 'D' ∧
    stripKeyword? "DOCTYPE".toList (c :: tail) = some after ∧
    cutBalanced 0 after = some (front, rest) ∧ content = front.dropWhile Text.isXmlBlank
  | .declaration | .instruction => ∃ content after, text = '?' :: after ∧
    Text.cutAt "?>".toList after = some (content, rest)

variable {text rest : List Char} {form : Form}

private theorem cuts_of_cutBang (h : cutBang text = .ok (form, rest)) :
    form.Cuts ('!' :: text) rest := by
  unfold cutBang at h
  split at h
  · split at h
    · rename_i hstrip
      unfold cutComment at h
      split at h
      · cases h
      · rename_i hcut
        split at h
        · cases h
        · cases h
          exact ⟨_, congrArg _ (Text.stripStart?_eq_some_iff.1 hstrip), hcut⟩
    · cases h
  · split at h
    · rename_i hstrip
      unfold cutCdata at h
      split at h
      · cases h
      · rename_i hcut
        cases h
        exact ⟨_, congrArg _ (Text.stripStart?_eq_some_iff.1 hstrip), hcut⟩
    · cases h
  · split at h
    · rename_i hc
      split at h
      · rename_i hstrip
        unfold cutDoctype at h
        split at h
        · cases h
        · rename_i hcut
          split at h
          · cases h
          · cases h
            exact ⟨_, _, _, _, rfl, hc, hstrip, hcut, rfl⟩
      · cases h
    · cases h
  · cases h

theorem cuts_of_cutMarkup (h : cutMarkup text = .ok (form, rest)) : form.Cuts text rest := by
  unfold cutMarkup at h
  split at h
  · cases h
  · exact cuts_of_cutBang h
  · unfold cutInstruction at h
    split at h
    · cases h
    · split at h
      · cases h
      · rename_i hcut
        split at h <;> cases h <;> exact ⟨_, _, rfl, hcut⟩
  · unfold cutCloseTag at h
    split at h
    · cases h
    · rename_i hcut
      cases h
      exact ⟨_, congrArg _ (eq_append_of_cutTag hcut), rfl⟩
  · rename_i hbang hquestion hslash
    have hhead : ∀ c ∈ text.head?, c ≠ '!' ∧ c ≠ '?' ∧ c ≠ '/' := by
      intro c hc
      obtain ⟨tail, rfl⟩ := List.head?_eq_some_iff.1 hc
      refine ⟨?_, ?_, ?_⟩
      · rintro rfl
        exact hbang tail rfl
      · rintro rfl
        exact hquestion tail rfl
      · rintro rfl
        exact hslash tail rfl
    unfold cutOpenTag at h
    split at h
    · cases h
    · rename_i content _ hcut
      have htext := eq_append_of_cutTag hcut
      split at h
      · rename_i hlast
        cases h
        obtain ⟨front, rfl⟩ := List.getLast?_eq_some_iff.1 hlast
        refine ⟨?_, hhead⟩
        rw [htext, List.dropLast_concat, List.append_assoc]
        rfl
      · cases h
        exact ⟨htext, hhead⟩

end Markup

namespace Cursor

variable {start : Nat} {text rest content name : List Char} {form : TokenForm} {next : Cursor}

theorem past_agrees {word : String} {cursor : Cursor} (h : cursor.past word = .ok next)
    (hcut : Text.cutAt word.toList cursor.rest = some (content, rest)) : next.rest = rest := by
  obtain ⟨before, hcut', -⟩ := past_eq_ok h
  rw [hcut] at hcut'
  cases hcut'
  rfl

theorem comment_agrees (h : markup start text = .ok (form, next))
    (hcuts : (Form.comment content).Cuts text rest) : form = .comment ∧ next.rest = rest ∧
      '<' :: text = "<!--".toList ++ content ++ "-->".toList ++ rest := by
  obtain ⟨after, rfl, hcut⟩ := hcuts
  have hmarkup : markup start ("!--".toList ++ after) =
      (past "-->" ⟨start + 4, after⟩).map (.comment, ·) := rfl
  rw [hmarkup] at h
  obtain ⟨cursor, hpast, heq⟩ := map_eq_ok_iff.1 h
  cases heq
  refine ⟨rfl, past_agrees hpast hcut, ?_⟩
  rw [Text.eq_append_of_cutAt hcut]
  simp

theorem cdata_agrees (h : markup start text = .ok (form, next))
    (hcuts : (Form.cdata content).Cuts text rest) : form = .cdata ∧ next.rest = rest ∧
      '<' :: text = "<![CDATA[".toList ++ content ++ "]]>".toList ++ rest := by
  obtain ⟨after, rfl, hcut⟩ := hcuts
  have hmarkup : markup start ("![CDATA[".toList ++ after) =
      (past "]]>" ⟨start + 9, after⟩).map (.cdata, ·) := rfl
  rw [hmarkup] at h
  obtain ⟨cursor, hpast, heq⟩ := map_eq_ok_iff.1 h
  cases heq
  refine ⟨rfl, past_agrees hpast hcut, ?_⟩
  rw [Text.eq_append_of_cutAt hcut]
  simp

theorem markup_question (start : Nat) (after : List Char) :
    markup start ('?' :: after) = instruction start after := rfl

/-- What is an instruction for one reading may be a declaration for the other. -/
theorem instruction_agrees (h : markup start text = .ok (form, next))
    (hcuts : Form.instruction.Cuts text rest) :
    (form = .instruction ∨ ∃ attrs, form = .declaration attrs) ∧ next.rest = rest := by
  obtain ⟨content, after, rfl, hcut⟩ := hcuts
  rw [markup_question] at h
  unfold instruction at h
  split at h
  · cases h
  · rename_i hpast
    have hrest := past_agrees hpast hcut
    split at h
    · split at h
      · cases h
      · cases h
        exact ⟨Or.inr ⟨_, rfl⟩, hrest⟩
    · cases h
      exact ⟨Or.inl rfl, hrest⟩

theorem exists_blanks_of_cuts {after : List Char} (hcuts : (Form.doctype content).Cuts text rest)
    (htext : text = "!DOCTYPE".toList ++ after) :
    ∃ blanks, (∀ c ∈ blanks, Text.isXmlBlank c = true) ∧
      after = blanks ++ (content ++ '>' :: rest) := by
  obtain ⟨c, tail, after', front, htext', -, hstrip, hcut, rfl⟩ := hcuts
  have htail : c :: tail = "DOCTYPE".toList ++ after :=
    (List.cons.inj (htext'.symm.trans htext)).2
  have hkeyword : stripKeyword? "DOCTYPE".toList ("DOCTYPE".toList ++ after) = some after := rfl
  rw [htail, hkeyword] at hstrip
  cases hstrip
  refine ⟨front.takeWhile Text.isXmlBlank, fun c hc ↦ List.mem_takeWhile_imp hc, ?_⟩
  rw [← List.append_assoc, List.takeWhile_append_dropWhile]
  exact eq_append_of_cutBalanced hcut

/-- Only the reading that builds the tree takes a keyword in lower case. -/
theorem doctype_agrees (h : markup start text = .ok (form, next))
    (hcuts : (Form.doctype content).Cuts text rest) :
    (∃ name attrs selfClosing, form = .openTag name attrs selfClosing) ∨
      (form = .doctype ∧ ∃ blanks, (∀ c ∈ blanks, Text.isXmlBlank c = true) ∧
        text = "!DOCTYPE".toList ++ (blanks ++ (content ++ '>' :: rest)) ∧
        doctypeEnd start 0 none ⟨start + 9, blanks ++ (content ++ '>' :: rest)⟩ = .ok next) := by
  have hcuts' := hcuts
  obtain ⟨c, tail, _, _, htext, hc, -, -, -⟩ := hcuts'
  have hdash : c ≠ '-' := by
    rintro rfl
    cases hc
  have hbracket : c ≠ '[' := by
    rintro rfl
    cases hc
  unfold markup at h
  rw [htext, if_neg (by simp [Text.startsWith, Text.stripStart?]),
    if_neg (by simp [Text.startsWith, Text.stripStart?, Ne.symm hdash]),
    if_neg (by simp [Text.startsWith, Text.stripStart?, Ne.symm hbracket]), ← htext] at h
  -- To the scan a keyword in lower case is the name of an element.
  split at h
  · rename_i hstarts
    obtain ⟨after, rfl⟩ := Text.startsWith_iff.1 hstarts
    obtain ⟨blanks, hblanks, rfl⟩ := exists_blanks_of_cuts hcuts rfl
    obtain ⟨cursor, hend, heq⟩ := map_eq_ok_iff.1 h
    cases heq
    exact Or.inr ⟨rfl, blanks, hblanks, rfl, hend⟩
  · rw [if_neg (by simp [htext, Text.startsWith, Text.stripStart?])] at h
    obtain ⟨name, attrs, selfClosing, -, rfl, -, -⟩ := openTag_eq_ok h
    exact Or.inl ⟨name, attrs, selfClosing, rfl⟩

theorem closeTag_of_markup (h : markup start text = .ok (form, next))
    (hcuts : (Form.closeTag name).Cuts text rest) :
    ∃ lexeme, form = .closeTag lexeme ∧ (lexeme.text = name → next.rest = rest) := by
  obtain ⟨content, rfl, rfl⟩ := hcuts
  have hmarkup : markup start ('/' :: (content ++ '>' :: rest)) =
      closeTag start (content ++ '>' :: rest) := rfl
  rw [hmarkup] at h
  obtain ⟨lexeme, -, rfl, -, -⟩ := closeTag_eq_ok h
  exact ⟨lexeme, rfl, closeTag_agrees h⟩

theorem markup_eq_openTag (start : Nat) (h : ∀ c ∈ text.head?, c ≠ '!' ∧ c ≠ '?' ∧ c ≠ '/') :
    markup start text = openTag start text := by
  cases text with
  | nil => rfl
  | cons c text =>
    obtain ⟨hbang, hquestion, hslash⟩ := h c rfl
    simp [markup, Text.startsWith, Text.stripStart?, Ne.symm hbang, Ne.symm hquestion,
      Ne.symm hslash]

end Cursor

/-! ## Runs of text -/

namespace Markup

variable {entity? entity?' : List Char → Option (List Char)} {size offset : Nat} {c : Char}
  {text out : List Char}

private theorem expand_mono
    (hentity : ∀ {name text}, entity? name = some text → entity?' name = some text)
    (h : expand entity? offset text = .ok out) (offset' : Nat) :
    expand entity?' offset' text = .ok out := by
  unfold expand at h
  split at h
  · exact h
  · rename_i hname
    split at h
    · rename_i hlookup
      unfold expand
      split
      · exact absurd rfl (hname _)
      · rw [hentity hlookup]
        exact h
    · cases h

/-- Declaring more entities does not change what references to the others stand for, and neither
does what stands before. -/
theorem unescapeFrom_mono
    (hentity : ∀ {name text}, entity? name = some text → entity?' name = some text)
    (h : unescapeFrom entity? size offset text = .ok out) (size' offset' : Nat) :
    unescapeFrom entity?' size' offset' text = .ok out := by
  fun_induction unescapeFrom entity? size offset text generalizing out offset' with
  | case1 offset =>
    rw [unescapeFrom]
    exact h
  | case2 offset rest name after hafter hlt =>
    rename_i ih
    obtain ⟨expansion, hexpand, h⟩ := bind_eq_ok_iff.1 h
    obtain ⟨tail, htail, h⟩ := bind_eq_ok_iff.1 h
    rw [unescapeFrom, if_pos rfl]
    dsimp only
    split
    · rename_i after' hafter'
      obtain rfl : after = after' := (List.cons.inj (hafter.symm.trans hafter')).2
      rw [expand_mono hentity hexpand]
      refine bind_eq_ok_iff.2 ⟨expansion, rfl, bind_eq_ok_iff.2 ⟨tail, ih htail _, h⟩⟩
    · rename_i hnone
      exact absurd hafter (hnone after)
  | case3 => cases h
  | case4 offset c rest hc ih =>
    obtain ⟨tail, htail, h⟩ := bind_eq_ok_iff.1 h
    rw [unescapeFrom, if_neg hc]
    exact bind_eq_ok_iff.2 ⟨tail, ih htail _, h⟩

/-- All references in a text can be replaced. -/
def IsReadable (entity? : List Char → Option (List Char)) (text : List Char) : Prop :=
  ∃ size offset out, unescapeFrom entity? size offset text = .ok out

namespace IsReadable

theorem nil : IsReadable entity? [] := by
  refine ⟨0, 0, [], ?_⟩
  rw [unescapeFrom]

theorem of_cons (h : IsReadable entity? (c :: text)) (hc : c ≠ '&') : IsReadable entity? text := by
  obtain ⟨size, offset, out, h⟩ := h
  rw [unescapeFrom, if_neg hc] at h
  obtain ⟨tail, htail, -⟩ := bind_eq_ok_iff.1 h
  exact ⟨size, _, tail, htail⟩

theorem cons (h : IsReadable entity? text) (hc : c ≠ '&') : IsReadable entity? (c :: text) := by
  obtain ⟨size, offset, out, h⟩ := h
  refine ⟨size, 0, c :: out, ?_⟩
  rw [unescapeFrom, if_neg hc]
  exact bind_eq_ok_iff.2 ⟨out, unescapeFrom_mono (fun h ↦ h) h size _, rfl⟩

private theorem of_reference (h : IsReadable entity? ('&' :: text)) :
    ∃ name after, text = name ++ ';' :: after ∧ ';' ∉ name ∧ IsReadable entity? after := by
  obtain ⟨size, offset, out, h⟩ := h
  rw [unescapeFrom, if_pos rfl] at h
  dsimp only at h
  split at h
  · rename_i after hafter
    obtain ⟨expansion, -, h⟩ := bind_eq_ok_iff.1 h
    obtain ⟨tail, htail, -⟩ := bind_eq_ok_iff.1 h
    refine ⟨text.takeWhile fun c ↦ c != '&' && c != ';', after, ?_, ?_, size, _, tail, htail⟩
    · rw [← hafter]
      exact (List.prefix_iff_eq_append.1 (List.takeWhile_prefix _)).symm
    · intro hmem
      simpa using List.mem_takeWhile_imp hmem
  · cases h

private theorem dropWhile (h : IsReadable entity? text) {p : Char → Bool} (hp : p '&' = false) :
    IsReadable entity? (text.dropWhile p) := by
  induction text with
  | nil => exact h
  | cons c text ih =>
    rw [List.dropWhile_cons]
    split
    · rename_i hc
      refine ih (h.of_cons ?_)
      rintro rfl
      rw [hp] at hc
      cases hc
    · exact h

end IsReadable

end Markup

namespace Cursor

variable {entity? : List Char → Option (List Char)} {start : Nat} {c : Char}
  {text rest : List Char} {form : TokenForm} {next : Cursor}

theorem cutAt_singleton {name after : List Char} (h : c ∉ name) :
    Text.cutAt [c] (name ++ c :: after) = some (name, after) := by
  induction name with
  | nil => simp [Text.cutAt, Text.stripStart?]
  | cons d name ih =>
    have hd : c ≠ d := fun he ↦ h (he ▸ List.mem_cons_self)
    rw [List.cons_append, Text.cutAt, Text.stripStart?, if_neg hd]
    simp only [ih fun hmem ↦ h (List.mem_cons_of_mem d hmem)]
    rfl

/-- A token of text ends inside the run of text that it starts. -/
theorem token_text (h : IsReadable entity? (c :: text)) (hc : c ≠ '<')
    (hrest : ∀ c ∈ rest.head?, c = '<') (start : Nat) :
    ∃ raw left, c :: text = raw ++ left ∧ IsReadable entity? left ∧
      token start c (text ++ rest) = .ok (.text, ⟨start + Text.byteSize raw, left ++ rest⟩) := by
  by_cases hamp : c = '&'
  · -- A reference goes on to its semicolon, and other text to the next reference or markup.
    subst hamp
    obtain ⟨name, after, rfl, hname, hafter⟩ := h.of_reference
    refine ⟨'&' :: name ++ [';'], after, by simp, hafter, ?_⟩
    rw [token, if_neg hc, if_pos rfl, List.append_assoc, List.cons_append, cutAt_singleton hname]
    have hone : ('&' : Char).utf8Size = 1 := rfl
    have hone' : (';' : Char).utf8Size = 1 := rfl
    simp [hone, hone', Nat.add_assoc]
  · have hspan : ∀ c ∈ rest.head?, (c != '<' && c != '&') = false := by
      intro c hc
      rw [hrest c hc]
      rfl
    obtain ⟨htake, hdrop⟩ := Text.span_append text hspan
    have hleft : IsReadable entity? (text.dropWhile fun c ↦ c != '<' && c != '&') :=
      (h.of_cons hamp).dropWhile rfl
    refine ⟨c :: text.takeWhile fun c ↦ c != '<' && c != '&', _, ?_, hleft, ?_⟩
    · rw [List.cons_append, List.takeWhile_append_dropWhile]
    · rw [token, if_neg hc, if_neg hamp]
      dsimp only
      rw [htake, hdrop]

theorem form_ne_text_of_markup (h : markup start text = .ok (form, next)) : form ≠ .text := by
  unfold markup at h
  split at h
  · unfold instruction at h
    split at h
    · cases h
    split at h
    · split at h
      · cases h
      · cases h
        simp
    · cases h
      simp
  split at h
  · obtain ⟨cursor, -, heq⟩ := map_eq_ok_iff.1 h
    cases heq
    simp
  split at h
  · obtain ⟨cursor, -, heq⟩ := map_eq_ok_iff.1 h
    cases heq
    simp
  split at h
  · obtain ⟨cursor, -, heq⟩ := map_eq_ok_iff.1 h
    cases heq
    simp
  split at h
  · obtain ⟨name, -, rfl, -, -⟩ := closeTag_eq_ok h
    simp
  · obtain ⟨name, attrs, selfClosing, -, rfl, -, -⟩ := openTag_eq_ok h
    simp

end Cursor

namespace Token

variable {entity? : List Char → Option (List Char)} {body run rest : List Char} {start stop : Nat}

private theorem stopAfter_of_text {parts : List Token} (hforms : ∀ part ∈ parts, part.form = .text)
    (hchained : Chained body start parts) (hends : EndsText body (stopAfter start parts))
    (hin : Cursor.IsIn ⟨start, run ++ rest⟩ body) (hrun : IsReadable entity? run)
    (hfree : '<' ∉ run) (hrest : ∀ c ∈ rest.head?, c = '<') :
    stopAfter start parts = start + Text.byteSize run := by
  induction parts generalizing start run with
  | nil =>
    cases run with
    | nil => rfl
    | cons c run =>
      -- If there were more of the run, one more token of text would start here.
      have hc : c ≠ '<' := fun he ↦ hfree (he ▸ List.mem_cons_self)
      obtain ⟨raw, left, hraw, -, htoken⟩ := Cursor.token_text hrun hc hrest start
      have hscanned : Scanned body ⟨start, raw, .text⟩ := by
        refine ⟨c, run ++ rest, _, hin, htoken, ?_⟩
        rw [← List.cons_append, hraw, List.append_assoc]
      exact absurd rfl (hends hscanned rfl)
  | cons part parts ih =>
    obtain ⟨rfl, hpart, hparts⟩ := hchained
    have hform := hforms part List.mem_cons_self
    obtain ⟨c, tail, next, hin', htoken, hraw⟩ := hpart
    have htext : run ++ rest = c :: tail := hin.rest_eq hin' rfl
    rw [hform] at htoken
    cases run with
    | nil =>
      -- If the run is over, the token starts with a bracket and is no text.
      rw [List.nil_append] at htext
      obtain rfl : c = '<' := hrest c (by rw [htext]; rfl)
      rw [Cursor.token, if_pos rfl] at htoken
      exact absurd rfl (Cursor.form_ne_text_of_markup htoken)
    | cons d run =>
      rw [List.cons_append] at htext
      cases htext
      have hc : c ≠ '<' := fun he ↦ hfree (he ▸ List.mem_cons_self)
      obtain ⟨raw, left, hleft, hreadable, htoken'⟩ := Cursor.token_text hrun hc hrest part.start
      rw [htoken] at htoken'
      cases htoken'
      have hpartraw : part.raw = raw := by
        refine List.append_cancel_right (hraw.symm.trans ?_)
        rw [← List.cons_append, hleft, List.append_assoc]
      have hstop : part.stop = part.start + Text.byteSize raw := by rw [stop, hpartraw]
      have hmoves : Cursor.Moves ⟨part.start, c :: run ++ rest⟩ raw ⟨part.stop, left ++ rest⟩ :=
        ⟨by rw [hleft, List.append_assoc], hstop⟩
      have hfree' : '<' ∉ left := by
        rw [hleft] at hfree
        exact fun hmem ↦ hfree (List.mem_append_right _ hmem)
      rw [stopAfter, ih (fun part hpart ↦ hforms part (List.mem_cons_of_mem _ hpart)) hparts hends
        (hmoves.isIn hin) hreadable hfree', hstop, hleft, Text.byteSize_append, Nat.add_assoc]

theorem Scanned.exists_markup {token : Token} (h : token.Scanned body)
    (hform : token.form ≠ .text) : ∃ text next, Cursor.IsIn ⟨token.start, '<' :: text⟩ body ∧
      Cursor.markup token.start text = .ok (token.form, next) ∧
      '<' :: text = token.raw ++ next.rest := by
  obtain ⟨c, text, next, hin, htoken, hraw⟩ := h
  unfold Cursor.token at htoken
  split at htoken
  · rename_i hc
    subst hc
    exact ⟨text, next, hin, htoken, hraw⟩
  · -- Whatever else a token starts with, it is text.
    split at htoken
    · split at htoken
      · exact absurd (congrArg Prod.fst (Except.ok.inj htoken)).symm hform
      · cases htoken
    · exact absurd (congrArg Prod.fst (Except.ok.inj htoken)).symm hform

theorem TextRun.exists_char (h : TextRun body start stop) :
    ∃ c text, Cursor.IsIn ⟨start, c :: text⟩ body ∧ c ≠ '<' := by
  obtain ⟨first, parts, hforms, ⟨rfl, ⟨c, text, next, hin, htoken, -⟩, -⟩, -⟩ := h
  refine ⟨c, text, hin, ?_⟩
  rintro rfl
  rw [Cursor.token, if_pos rfl] at htoken
  exact Cursor.form_ne_text_of_markup htoken (hforms first List.mem_cons_self)

/-- The scan of a run of text ends where the run does. -/
theorem TextRun.stop_eq (h : TextRun body start stop) (hends : EndsText body stop)
    (hin : Cursor.IsIn ⟨start, run ++ rest⟩ body) (hrun : IsReadable entity? run)
    (hfree : '<' ∉ run) (hrest : ∀ c ∈ rest.head?, c = '<') :
    stop = start + Text.byteSize run := by
  obtain ⟨first, parts, hforms, hchained, rfl⟩ := h
  exact stopAfter_of_text hforms hchained hends hin hrun hfree hrest

end Token

end XmlInspect
