import XmlInspect.Proofs.PseudoAttributes

/-!
# Scanning, call by call

Whoever scans a text asks for one token after the other. Each call reads what stands at the cursor
and leaves the cursor behind it, and after a fault the cursor is put at the end, so that nothing is
handed over any more. How far a call moves is found by a search of its own for each kind of token:
for a word, for the quote that was opened, or for the bracket that closes the first. Whatever the
search is, the offset that it arrives at and the text that it leaves have to fit together, or the
next call would read at a place other than the one it reports.

So the tokens of a text lie side by side from its start on, and cover it if nothing is wrong with
it. The same holds inside an opening tag, where the name and then the names and values of the
attributes come one after the other.
-/

namespace XmlInspect

/-! ## Offsets and what is left -/

namespace Cursor

variable {cursor next : Cursor} {start depth : Nat} {quote : Option Char} {c : Char}
  {chars rest text : List Char} {form : TokenForm}

/-- The offset at which the text of a cursor ends. -/
def bound (cursor : Cursor) : Nat := cursor.offset + Text.byteSize cursor.rest

theorem Moves.bound_eq (h : cursor.Moves chars next) : next.bound = cursor.bound := by
  rw [bound, bound, h.rest_eq, h.offset_eq, Text.byteSize_append, Nat.add_assoc]

theorem bound_of_past {word : String} (h : cursor.past word = .ok next) :
    next.bound = cursor.bound := by
  obtain ⟨before, -, hmoves⟩ := past_eq_ok h
  exact hmoves.bound_eq

private theorem bound_of_doctypeEnd (h : cursor.doctypeEnd start depth quote = .ok next) :
    next.bound = cursor.bound := by
  fun_induction doctypeEnd start depth quote cursor with
  | case1 => cases h
  | case2 depth cursor c rest hr _ next' q ih =>
    have hmoves : cursor.Moves [c] next' := ⟨hr, rfl⟩
    exact (ih h).trans hmoves.bound_eq
  | case3 depth cursor c rest hr _ next' hq ih =>
    have hmoves : cursor.Moves [c] next' := ⟨hr, rfl⟩
    exact (ih h).trans hmoves.bound_eq
  | case4 => cases h
  | case5 depth cursor rest tail hstrip middle hpast hr _ _ hlt ih =>
    cases Text.stripStart?_eq_some_iff.1 hstrip
    have hmoves : cursor.Moves "<!--".toList ⟨cursor.offset + 4, tail⟩ := ⟨hr, rfl⟩
    exact ((ih h).trans (bound_of_past hpast)).trans hmoves.bound_eq
  | case6 => cases h
  | case7 depth cursor rest tail hstrip _ middle hpast hr _ _ hlt ih =>
    cases Text.stripStart?_eq_some_iff.1 hstrip
    have hmoves : cursor.Moves "<?".toList ⟨cursor.offset + 2, tail⟩ := ⟨hr, rfl⟩
    exact ((ih h).trans (bound_of_past hpast)).trans hmoves.bound_eq
  | case8 depth cursor rest _ _ hr _ next' _ ih =>
    have hmoves : cursor.Moves ['<'] next' := ⟨hr, rfl⟩
    exact (ih h).trans hmoves.bound_eq
  | case9 cursor rest hr _ next' =>
    have hmoves : cursor.Moves ['>'] next' := ⟨hr, rfl⟩
    rw [← Except.ok.inj h]
    exact hmoves.bound_eq
  | case10 cursor rest depth hr _ next' _ _ ih =>
    have hmoves : cursor.Moves ['>'] next' := ⟨hr, rfl⟩
    exact (ih h).trans hmoves.bound_eq
  | case11 depth cursor c rest hr _ next' _ _ _ ih =>
    have hmoves : cursor.Moves [c] next' := ⟨hr, rfl⟩
    exact (ih h).trans hmoves.bound_eq

private theorem bound_of_instruction (h : instruction start rest = .ok (form, next)) :
    next.bound = bound ⟨start + 2, rest⟩ := by
  obtain ⟨content, hcut, hoffset, -⟩ := instruction_eq_ok_iff.1 h
  have hmoves : Moves ⟨start + 2, rest⟩ (content ++ "?>".toList) next := by
    refine ⟨Text.eq_append_of_cutAt hcut, ?_⟩
    rw [hoffset, Text.byteSize_append, Nat.add_assoc]
    rfl
  exact hmoves.bound_eq

private theorem bound_of_closeTag (h : closeTag start rest = .ok (form, next)) :
    next.bound = bound ⟨start + 2, rest⟩ := by
  unfold closeTag at h
  split at h
  · cases h
  · rename_i name cursor hname
    split at h
    · rename_i offset after hskip
      cases h
      have hblanks := moves_skipBlanks cursor
      rw [hskip] at hblanks
      exact (((name_eq_ok hname).2.1.trans hblanks).trans (moves_char offset '>' after)).bound_eq
    · cases h

private theorem bound_of_openTag (h : openTag start rest = .ok (form, next)) :
    next.bound = bound ⟨start + 1, rest⟩ := by
  obtain ⟨name, attrs, selfClosing, cursor, -, hname, htag⟩ := openTag_eq_ok h
  obtain ⟨⟨front, hfront⟩, -, -⟩ := tagEnd_eq_ok htag
  exact ((name_eq_ok hname).2.1.trans hfront).bound_eq

private theorem bound_of_markup (h : markup start text = .ok (form, next)) :
    next.bound = bound ⟨start, '<' :: text⟩ := by
  have hreads := reads_of_markup h
  cases form with
  | text => exact hreads.elim
  | comment =>
    obtain ⟨rest, rfl, hpast⟩ := hreads
    have hmoves : Moves ⟨start, "<!--".toList ++ rest⟩ "<!--".toList ⟨start + 4, rest⟩ := ⟨rfl, rfl⟩
    exact (bound_of_past hpast).trans hmoves.bound_eq
  | cdata =>
    obtain ⟨rest, rfl, hpast⟩ := hreads
    have hmoves : Moves ⟨start, "<![CDATA[".toList ++ rest⟩ "<![CDATA[".toList ⟨start + 9, rest⟩ :=
      ⟨rfl, rfl⟩
    exact (bound_of_past hpast).trans hmoves.bound_eq
  | doctype =>
    obtain ⟨rest, rfl, hend⟩ := hreads
    have hmoves : Moves ⟨start, "<!DOCTYPE".toList ++ rest⟩ "<!DOCTYPE".toList ⟨start + 9, rest⟩ :=
      ⟨rfl, rfl⟩
    exact (bound_of_doctypeEnd hend).trans hmoves.bound_eq
  | instruction | declaration attrs =>
    obtain ⟨rest, rfl, hinstruction⟩ := hreads
    have hmoves : Moves ⟨start, '<' :: '?' :: rest⟩ "<?".toList ⟨start + 2, rest⟩ := ⟨rfl, rfl⟩
    exact (bound_of_instruction hinstruction).trans hmoves.bound_eq
  | openTag name attrs selfClosing =>
    exact (bound_of_openTag hreads).trans (moves_char start '<' text).bound_eq
  | closeTag name =>
    obtain ⟨rest, rfl, hclose⟩ := hreads
    have hmoves : Moves ⟨start, '<' :: '/' :: rest⟩ "</".toList ⟨start + 2, rest⟩ := ⟨rfl, rfl⟩
    exact (bound_of_closeTag hclose).trans hmoves.bound_eq

/-- Whatever a token is found by, the cursor is left where its text says. -/
theorem bound_of_token (h : token start c rest = .ok (form, next)) :
    next.bound = bound ⟨start, c :: rest⟩ := by
  unfold token at h
  split at h
  · rename_i hc
    rw [hc]
    exact bound_of_markup h
  split at h
  · rename_i hc
    split at h
    · rename_i before after hcut
      cases h
      have hmoves : Moves ⟨start, c :: rest⟩ ('&' :: before ++ [';'])
          ⟨start + 1 + Text.byteSize before + 1, after⟩ := by
        refine ⟨?_, ?_⟩
        · rw [hc, Text.eq_append_of_cutAt hcut]
          simp
        · rw [Text.byteSize_append, Text.byteSize_cons, Nat.add_assoc, Nat.add_assoc]
          rfl
      exact hmoves.bound_eq
    · cases h
  · cases h
    refine Moves.bound_eq ⟨?_, rfl⟩
    rw [List.cons_append, List.takeWhile_append_dropWhile]

/-! ## Calls -/

/-- One call for a token: what it hands over, and where it leaves the cursor. At the end there is
nothing to hand over, and a fault leaves the cursor at the end. -/
def call (cursor : Cursor) : Option (Except ScanFault Token) × Cursor :=
  match cursor.rest with
  | [] => (none, cursor)
  | c :: rest =>
    match token cursor.offset c rest with
    | .error fault => (some (.error fault), ⟨cursor.bound, []⟩)
    | .ok (form, next) =>
      let raw := cursor.rest.take (cursor.rest.length - next.rest.length)
      (some (.ok ⟨cursor.offset, raw, form⟩), next)

/-- What the call of this number hands over. -/
def calls (cursor : Cursor) : Nat → Option (Except ScanFault Token)
  | 0 => cursor.call.1
  | n + 1 => cursor.call.2.calls n

private theorem call_of_error {fault : ScanFault} (h : token start c rest = .error fault) :
    call ⟨start, c :: rest⟩ = (some (.error fault), ⟨bound ⟨start, c :: rest⟩, []⟩) := by
  simp only [call, h]

private theorem call_of_ok {raw : List Char} (h : token start c rest = .ok (form, next))
    (hraw : c :: rest = raw ++ next.rest) :
    call ⟨start, c :: rest⟩ = (some (.ok ⟨start, raw, form⟩), next) := by
  simp only [call, h]
  rw [hraw, List.length_append, Nat.add_sub_cancel, List.take_left]

end Cursor

namespace Token

/-- What is handed over in turn: the tokens, and then the fault if there is one. -/
def items (result : List Token × Option ScanFault) : List (Except ScanFault Token) :=
  result.1.map .ok ++ result.2.toList.map .error

end Token

namespace Cursor

/-- A call at the end changes nothing. Any other hands over the first item of a scan from the cursor
on, and the rest is what a scan from the next cursor gives. -/
theorem call_cases (cursor : Cursor) :
    (cursor.rest = [] ∧ cursor.call = (none, cursor)) ∨
      ∃ item next, cursor.call = (some item, next) ∧
        Token.items (Token.scanFrom cursor.offset cursor.rest) =
          item :: Token.items (Token.scanFrom next.offset next.rest) := by
  obtain ⟨start, text⟩ := cursor
  cases text with
  | nil => exact .inl ⟨rfl, rfl⟩
  | cons c rest =>
    right
    cases htoken : token start c rest with
    | error fault =>
      refine ⟨.error fault, _, call_of_error htoken, ?_⟩
      rw [Token.scanFrom_error htoken, Token.scanFrom_nil]
      rfl
    | ok result =>
      obtain ⟨form, next⟩ := result
      obtain ⟨front, hfront⟩ := suffix_of_token htoken
      have hraw : c :: rest = c :: front ++ next.rest := by rw [← hfront, List.cons_append]
      -- The offset that was searched for is the one after the characters of the token.
      have hoffset : start + Text.byteSize (c :: front) = next.offset := by
        have hbound := bound_of_token htoken
        rw [bound, bound, hraw, Text.byteSize_append] at hbound
        dsimp only at hbound
        omega
      refine ⟨.ok ⟨start, c :: front, form⟩, next, call_of_ok htoken hraw, ?_⟩
      rw [Token.scanFrom_cons htoken hraw, hoffset]
      rfl

/-- The calls hand over the tokens of a text and its fault, and then nothing more. -/
theorem calls_eq (cursor : Cursor) (n : Nat) :
    cursor.calls n = (Token.items (Token.scanFrom cursor.offset cursor.rest))[n]? := by
  induction n generalizing cursor with
  | zero =>
    rw [calls]
    rcases cursor.call_cases with ⟨hrest, hcall⟩ | ⟨item, next, hcall, hitems⟩
    · rw [hcall, hrest, Token.scanFrom_nil]
      rfl
    · rw [hcall, hitems]
      rfl
  | succ n ih =>
    rw [calls, ih]
    rcases cursor.call_cases with ⟨hrest, hcall⟩ | ⟨item, next, hcall, hitems⟩
    · rw [hcall, hrest, Token.scanFrom_nil]
      rfl
    · rw [hcall, hitems, List.getElem?_cons_succ]

/-- Two tokens, a fault, and nothing from there on. -/
example : (List.range 5).map (fun n ↦ (calls ⟨0, "é<a/><b".toList⟩ n).map Except.isOk) =
    [some true, some true, some false, none, none] := by decide +kernel

end Cursor

/-! ## Side by side -/

private theorem AttributeLexeme.Row.stop_le {text : List Char} {start stop : Nat}
    {attrs : List AttributeLexeme} (h : Row text start attrs stop) :
    start ≤ stop ∧ ∀ span ∈ spansOf attrs, span.stop ≤ stop := by
  induction attrs generalizing start with
  | nil => exact ⟨h, by simp [spansOf]⟩
  | cons attr attrs ih =>
    obtain ⟨hstart, -, hgap, -, hrest⟩ := h
    obtain ⟨hvalue, hlater⟩ := ih hrest
    have hname : attr.name.start ≤ attr.name.stop := Nat.le_add_right _ _
    have hbefore : attr.value.start ≤ attr.value.stop := Nat.le_add_right _ _
    refine ⟨by omega, ?_⟩
    intro span hspan
    have hspans : spansOf (attr :: attrs) = attr.name.span :: attr.value.span :: spansOf attrs :=
      rfl
    rw [hspans, List.mem_cons, List.mem_cons] at hspan
    rcases hspan with rfl | rfl | hspan
    · exact (hgap.trans hbefore).trans hvalue
    · exact hvalue
    · exact hlater span hspan

private theorem Text.IsQuoted.two_le_byteSize {chars content : List Char}
    (h : IsQuoted chars content) : 2 ≤ byteSize chars := by
  obtain ⟨quote, -, -, rfl⟩ := h
  have hquote := quote.utf8Size_pos
  rw [List.cons_append, byteSize_cons, byteSize_append, byteSize_cons]
  omega

namespace Token

variable {text : List Char} {token : Token} {tokens : List Token}

/-- How the name and the attributes of an opening tag lie in it. -/
structure LaysOut (text : List Char) (token : Token) (name : Lexeme)
    (attrs : List AttributeLexeme) : Prop where
  /-- The name comes right after the bracket. -/
  bracket : Text.Stands text token.start name.start ['<']
  name_stands : name.Stands text
  name_stop_le : name.stop ≤ token.stop
  /-- The name of an attribute, its value and the next name come one after the other. -/
  pairwise : (AttributeLexeme.spansOf attrs).Pairwise fun a b ↦ a.stop ≤ b.start
  /-- All of them hold something, and lie between the name and the end of the tag. -/
  inside : ∀ span ∈ AttributeLexeme.spansOf attrs,
    span.Solid text ∧ name.stop ≤ span.start ∧ span.stop ≤ token.stop
  /-- A value starts and ends with the same quote, which is nowhere else in it. -/
  value : ∀ attr ∈ attrs, attr.value.start + 2 ≤ attr.value.stop ∧
    Text.Stands text attr.value.start attr.value.stop attr.value.text ∧
    ∃ content, Text.IsQuoted attr.value.text content

/-- Some tokens lie side by side in a text, from its start on, and so do the parts of tags. -/
structure SideBySide (text : List Char) (tokens : List Token) : Prop where
  stands : ∀ token ∈ tokens,
    Text.Stands text token.start token.stop token.raw ∧ token.start < token.stop
  head : ∀ token ∈ tokens.head?, token.start = 0
  next : tokens.IsChain fun token later ↦ token.stop = later.start
  tag : ∀ token ∈ tokens, ∀ name attrs selfClosing,
    token.form = .openTag name attrs selfClosing → LaysOut text token name attrs

private theorem Scanned.laysOut {name : Lexeme} {attrs : List AttributeLexeme} {selfClosing : Bool}
    (h : token.Scanned text) (hform : token.form = .openTag name attrs selfClosing) :
    LaysOut text token name attrs := by
  obtain ⟨hname, hattrs⟩ := h.scanned_of_openTag hform
  have hfits := h.fits
  rw [Fits, hform] at hfits
  obtain ⟨hstart, ⟨front, hraw⟩, hrow⟩ := hfits
  have hbracket := h.stands
  rw [hraw, List.cons_append, ← List.singleton_append] at hbracket
  obtain ⟨hafter, hpairwise⟩ := hrow.pairwise
  refine ⟨?_, hname, hrow.stop_le.1, hpairwise, ?_, ?_⟩
  · rw [hstart]
    exact hbracket.left
  · intro span hspan
    exact ⟨AttributeLexeme.solid_of_mem_spansOf hattrs span hspan, hafter span hspan,
      hrow.stop_le.2 span hspan⟩
  · intro attr hattr
    have hstands := (hattrs attr hattr).solid.value.stands
    obtain ⟨content, hquoted⟩ := (hattrs attr hattr).exists_isQuoted
    refine ⟨?_, hstands, content, hquoted⟩
    rw [hstands.stop_eq]
    exact Nat.add_le_add_left hquoted.two_le_byteSize _

theorem Chained.start_eq {offset : Nat} (h : Chained text offset tokens) :
    ∀ token ∈ tokens.head?, token.start = offset := by
  cases tokens with
  | nil => simp
  | cons token tokens =>
    intro first hfirst
    cases hfirst
    exact h.1

private theorem Chained.isChain {offset : Nat} (h : Chained text offset tokens) :
    tokens.IsChain fun token later ↦ token.stop = later.start := by
  induction tokens generalizing offset with
  | nil => exact .nil
  | cons token tokens ih =>
    obtain ⟨-, -, hrest⟩ := h
    exact List.isChain_cons.2 ⟨fun later hlater ↦ (hrest.start_eq later hlater).symm, ih hrest⟩

/-- Nothing comes after a fault. -/
theorem getElem?_items_of_lt {result : List Token × Option ScanFault} {fault : ScanFault}
    {m n : Nat} (h : (items result)[n]? = some (.error fault)) (hlt : n < m) :
    (items result)[m]? = none := by
  obtain ⟨tokens, last⟩ := result
  have hle : tokens.length ≤ n := by
    by_contra hn
    rw [items, List.getElem?_append_left (by simpa using hn), List.getElem?_map] at h
    obtain ⟨token, -, htoken⟩ := Option.map_eq_some_iff.1 h
    cases htoken
  have hlast : last.toList.length ≤ 1 := by cases last <;> simp
  refine List.getElem?_eq_none ?_
  rw [items, List.length_append, List.length_map, List.length_map]
  dsimp only
  omega

/-- Asked for one token after the other, a scan hands over tokens that lie side by side from the
start of the text on. If no fault is handed over they end where the text ends, and if one is then
nothing comes after it. The names and values in opening tags lie side by side as well. -/
theorem sideBySide_of_scan (text : List Char) :
    (∀ n, Cursor.calls ⟨0, text⟩ n = (items (scan text))[n]?) ∧
      (∀ n fault, Cursor.calls ⟨0, text⟩ n = some (.error fault) →
        ∀ m, n < m → Cursor.calls ⟨0, text⟩ m = none) ∧
      SideBySide text (scan text).1 ∧
      ((scan text).2 = none → stopAfter 0 (scan text).1 = Text.byteSize text) := by
  have hcalls : ∀ n, Cursor.calls ⟨0, text⟩ n = (items (scan text))[n]? :=
    Cursor.calls_eq ⟨0, text⟩
  have hchained := chained_of_scan text
  refine ⟨hcalls, ?_, ⟨?_, ?_, ?_, ?_⟩, stopAfter_of_scan⟩
  · intro n fault hfault m hlt
    rw [hcalls] at hfault ⊢
    exact getElem?_items_of_lt hfault hlt
  · intro token htoken
    exact ⟨(hchained.scanned htoken).stands, (hchained.scanned htoken).start_lt_stop⟩
  · exact hchained.start_eq
  · exact hchained.isChain
  · intro token htoken name attrs selfClosing hform
    exact (hchained.scanned htoken).laysOut hform

end Token

end XmlInspect
