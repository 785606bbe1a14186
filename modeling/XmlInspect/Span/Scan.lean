import XmlInspect.Span.Token

/-!
# Scanning tokens

The scan moves a cursor over the text: the offset it stands at, and what is left. Each step
returns the cursor after what it has read, whose text is an end of the text before.
-/

namespace XmlInspect

/-- A place in a text and the text from there on. -/
structure Cursor where
  offset : Nat
  rest : List Char

namespace Cursor

/-! ## Small steps -/

/-- Moves over blanks. -/
def skipBlanks (cursor : Cursor) : Cursor :=
  ⟨cursor.offset + (cursor.rest.takeWhile Text.isAsciiBlank).length,
    cursor.rest.dropWhile Text.isAsciiBlank⟩

/-- Whether a name ends before this character. -/
def endsName (c : Char) : Bool :=
  Text.isAsciiBlank c || c == '>' || c == '/' || c == '=' || c == '<' || c == '?'

/-- Reads a name. -/
def name (cursor : Cursor) : Except ScanFault (Lexeme × Cursor) :=
  match cursor.rest with
  | [] => .error ⟨cursor.offset, .expectedName⟩
  | c :: rest =>
    if endsName c then
      .error ⟨cursor.offset, .expectedName⟩
    else
      let lexeme : Lexeme := ⟨cursor.offset, c :: rest.takeWhile (!endsName ·)⟩
      .ok (lexeme, ⟨lexeme.stop, rest.dropWhile (!endsName ·)⟩)

/-- Moves past the first occurrence of a word. -/
def past (word : String) (cursor : Cursor) : Except ScanFault Cursor :=
  match Text.cutAt word.toList cursor.rest with
  | some (before, after) =>
    .ok ⟨cursor.offset + Text.byteSize before + Text.byteSize word.toList, after⟩
  | none => .error ⟨cursor.offset, .missing word⟩

/-- Reads a value in quotes. -/
def value (cursor : Cursor) : Except ScanFault (Lexeme × Cursor) :=
  match cursor.rest with
  | [] => .error ⟨cursor.offset, .expectedQuote⟩
  | quote :: rest =>
    if quote == '"' || quote == '\'' then
      match Text.cutAt [quote] rest with
      | some (content, after) =>
        let lexeme : Lexeme := ⟨cursor.offset, quote :: content ++ [quote]⟩
        .ok (lexeme, ⟨lexeme.stop, after⟩)
      | none => .error ⟨cursor.offset + 1, .missing (String.singleton quote)⟩
    else
      .error ⟨cursor.offset, .expectedQuote⟩

/-- Reads a name, an equals sign and a value. -/
def attr (cursor : Cursor) : Except ScanFault (AttributeLexeme × Cursor) :=
  match cursor.name with
  | .error fault => .error fault
  | .ok (name, cursor) =>
    match cursor.skipBlanks with
    | ⟨offset, '=' :: rest⟩ =>
      match (skipBlanks ⟨offset + 1, rest⟩).value with
      | .error fault => .error fault
      | .ok (value, cursor) => .ok (⟨name, value⟩, cursor)
    | ⟨offset, _⟩ => .error ⟨offset, .expectedEquals⟩

/-! ## Progress -/

theorem suffix_skipBlanks (cursor : Cursor) : cursor.skipBlanks.rest <:+ cursor.rest :=
  List.dropWhile_suffix _

theorem length_lt_of_name {cursor next : Cursor} {lexeme : Lexeme}
    (h : cursor.name = .ok (lexeme, next)) : next.rest.length < cursor.rest.length := by
  unfold name at h
  split at h
  · cases h
  · rename_i c rest hrest
    split at h
    · cases h
    · cases h
      have := (List.dropWhile_suffix (l := rest) (!endsName ·)).length_le
      simp only [hrest, List.length_cons]
      omega

theorem suffix_of_name {cursor next : Cursor} {lexeme : Lexeme}
    (h : cursor.name = .ok (lexeme, next)) : next.rest <:+ cursor.rest := by
  unfold name at h
  split at h
  · cases h
  · rename_i c rest hrest
    split at h
    · cases h
    · cases h
      rw [hrest]
      exact (List.dropWhile_suffix _).trans (List.suffix_cons c rest)

theorem suffix_of_past {word : String} {cursor next : Cursor} (h : cursor.past word = .ok next) :
    next.rest <:+ cursor.rest := by
  unfold past at h
  split at h
  · rename_i hc
    cases h
    exact Text.suffix_of_cutAt hc
  · cases h

theorem suffix_of_value {cursor next : Cursor} {lexeme : Lexeme}
    (h : cursor.value = .ok (lexeme, next)) : next.rest <:+ cursor.rest := by
  unfold value at h
  split at h
  · cases h
  · rename_i quote rest hrest
    split at h
    · split at h
      · rename_i hc
        cases h
        rw [hrest]
        exact (Text.suffix_of_cutAt hc).trans (List.suffix_cons quote rest)
      · cases h
    · cases h

theorem suffix_of_attr {cursor next : Cursor} {lexeme : AttributeLexeme}
    (h : cursor.attr = .ok (lexeme, next)) :
    ∃ middle : Cursor, next.rest <:+ middle.rest ∧ ∃ name, cursor.name = .ok (name, middle) := by
  unfold attr at h
  split at h
  · cases h
  · rename_i name middle hname
    refine ⟨middle, ?_, name, hname⟩
    split at h
    · rename_i offset rest hskip
      split at h
      · cases h
      · rename_i hvalue
        cases h
        have hrest : ('=' :: rest) <:+ middle.rest := by
          simpa [hskip] using suffix_skipBlanks middle
        exact (suffix_of_value hvalue).trans
          ((suffix_skipBlanks _).trans ((List.suffix_cons _ _).trans hrest))
    · cases h

theorem length_lt_of_attr {cursor next : Cursor} {lexeme : AttributeLexeme}
    (h : cursor.attr = .ok (lexeme, next)) : next.rest.length < cursor.rest.length := by
  obtain ⟨middle, hsuffix, name, hname⟩ := suffix_of_attr h
  exact Nat.lt_of_le_of_lt hsuffix.length_le (length_lt_of_name hname)

/-! ## Tags and declarations -/

/-- Reads the attributes of a tag that starts at `start`, and its end. -/
def tagEnd (start : Nat) (cursor : Cursor) :
    Except ScanFault (List AttributeLexeme × Bool × Cursor) :=
  match hs : cursor.skipBlanks with
  | ⟨_, []⟩ => .error ⟨start, .unterminatedTag⟩
  | ⟨offset, '>' :: rest⟩ => .ok ([], false, ⟨offset + 1, rest⟩)
  | ⟨offset, '/' :: '>' :: rest⟩ => .ok ([], true, ⟨offset + 2, rest⟩)
  | ⟨offset, c :: rest⟩ =>
    match h : attr ⟨offset, c :: rest⟩ with
    | .error fault => .error fault
    | .ok (lexeme, next) =>
      have : next.rest.length < cursor.rest.length := by
        have hskip := (suffix_skipBlanks cursor).length_le
        rw [hs] at hskip
        exact Nat.lt_of_lt_of_le (length_lt_of_attr h) hskip
      match tagEnd start next with
      | .error fault => .error fault
      | .ok (attrs, selfClosing, last) => .ok (lexeme :: attrs, selfClosing, last)
termination_by cursor.rest.length

/-- Reads pseudo-attributes as long as they start before `stop`. -/
def pseudoAttributes (stop : Nat) (cursor : Cursor) : Except ScanFault (List AttributeLexeme) :=
  let start := cursor.skipBlanks
  if start.offset < stop then
    match h : start.attr with
    | .error fault => .error fault
    | .ok (lexeme, next) =>
      have : next.rest.length < cursor.rest.length :=
        Nat.lt_of_lt_of_le (length_lt_of_attr h) (suffix_skipBlanks cursor).length_le
      match pseudoAttributes stop next with
      | .error fault => .error fault
      | .ok attrs => .ok (lexeme :: attrs)
  else
    .ok []
termination_by cursor.rest.length

/-- The quote that is open after a character inside a quote. -/
def quoteAfter (quote c : Char) : Option Char := if c = quote then none else some quote

/-- Moves past the end of a document type declaration that starts at `start`. Brackets nest, and
those in quotes, comments and instructions do not count. -/
def doctypeEnd (start depth : Nat) (quote : Option Char) (cursor : Cursor) :
    Except ScanFault Cursor :=
  match hr : cursor.rest with
  | [] => .error ⟨start, .unterminatedDoctype⟩
  | c :: rest =>
    have : rest.length < cursor.rest.length := by
      rw [hr, List.length_cons]
      exact Nat.lt_succ_self _
    let next : Cursor := ⟨cursor.offset + c.utf8Size, rest⟩
    match quote with
    | some q => doctypeEnd start depth (quoteAfter q c) next
    | none =>
      if c = '"' ∨ c = '\'' then
        doctypeEnd start depth (some c) next
      else if c = '<' then
        match Text.stripStart? "!--".toList rest, Text.stripStart? ['?'] rest with
        | some _, _ =>
          match h : past "-->" ⟨cursor.offset + 4, rest.drop 3⟩ with
          | .error fault => .error fault
          | .ok next =>
            have : next.rest.length < cursor.rest.length := by
              have := (suffix_of_past h).length_le
              simp only [List.length_drop] at this
              simp only [hr, List.length_cons]
              omega
            doctypeEnd start depth none next
        | none, some _ =>
          match h : past "?>" ⟨cursor.offset + 2, rest.drop 1⟩ with
          | .error fault => .error fault
          | .ok next =>
            have : next.rest.length < cursor.rest.length := by
              have := (suffix_of_past h).length_le
              simp only [List.length_drop] at this
              simp only [hr, List.length_cons]
              omega
            doctypeEnd start depth none next
        | none, none => doctypeEnd start (depth + 1) none next
      else if c = '>' then
        match depth with
        | 0 => .ok next
        | depth + 1 => doctypeEnd start depth none next
      else
        doctypeEnd start depth none next
termination_by cursor.rest.length
decreasing_by all_goals assumption

/-! ## The first token -/

/-- Whether what follows `<?` makes it a declaration. -/
def startsDeclaration (text : List Char) : Bool :=
  match Text.stripStart? "xml".toList text with
  | some (c :: _) => Text.isAsciiBlank c || c == '?'
  | _ => false

/-- Reads what starts with `<?` at `start`. -/
def instruction (start : Nat) (rest : List Char) : Except ScanFault (TokenForm × Cursor) :=
  match past "?>" ⟨start + 2, rest⟩ with
  | .error fault => .error fault
  | .ok next =>
    if startsDeclaration rest then
      match pseudoAttributes (next.offset - 2) ⟨start + 5, rest.drop 3⟩ with
      | .error fault => .error fault
      | .ok attrs => .ok (.declaration attrs, next)
    else
      .ok (.instruction, next)

/-- Reads what starts with `</` at `start`. -/
def closeTag (start : Nat) (rest : List Char) : Except ScanFault (TokenForm × Cursor) :=
  match name ⟨start + 2, rest⟩ with
  | .error fault => .error fault
  | .ok (name, cursor) =>
    match cursor.skipBlanks with
    | ⟨offset, '>' :: rest⟩ => .ok (.closeTag name, ⟨offset + 1, rest⟩)
    | ⟨offset, _⟩ => .error ⟨offset, .expectedTagEnd⟩

/-- Reads an opening tag whose `<` stands at `start`. -/
def openTag (start : Nat) (rest : List Char) : Except ScanFault (TokenForm × Cursor) :=
  match name ⟨start + 1, rest⟩ with
  | .error fault => .error fault
  | .ok (name, cursor) =>
    match cursor.tagEnd start with
    | .error fault => .error fault
    | .ok (attrs, selfClosing, next) => .ok (.openTag name attrs selfClosing, next)

/-- Reads markup whose `<` stands at `start`. -/
def markup (start : Nat) (rest : List Char) : Except ScanFault (TokenForm × Cursor) :=
  if Text.startsWith ['?'] rest then
    instruction start (rest.drop 1)
  else if Text.startsWith "!--".toList rest then
    (past "-->" ⟨start + 4, rest.drop 3⟩).map (.comment, ·)
  else if Text.startsWith "![CDATA[".toList rest then
    (past "]]>" ⟨start + 9, rest.drop 8⟩).map (.cdata, ·)
  else if Text.startsWith "!DOCTYPE".toList rest then
    (doctypeEnd start 0 none ⟨start + 9, rest.drop 8⟩).map (.doctype, ·)
  else if Text.startsWith ['/'] rest then
    closeTag start (rest.drop 1)
  else
    openTag start rest

/-- Reads the token that starts with the character `c` at `start`. -/
def token (start : Nat) (c : Char) (rest : List Char) : Except ScanFault (TokenForm × Cursor) :=
  if c = '<' then
    markup start rest
  else if c = '&' then
    match Text.cutAt [';'] rest with
    | some (before, after) => .ok (.text, ⟨start + 1 + Text.byteSize before + 1, after⟩)
    | none => .error ⟨start, .missing ";"⟩
  else
    let run := c :: rest.takeWhile fun c ↦ c != '<' && c != '&'
    .ok (.text, ⟨start + Text.byteSize run, rest.dropWhile fun c ↦ c != '<' && c != '&'⟩)

/-! ## What a token leaves -/

theorem suffix_of_tagEnd {start : Nat} {cursor next : Cursor} {attrs : List AttributeLexeme}
    {selfClosing : Bool} (h : cursor.tagEnd start = .ok (attrs, selfClosing, next)) :
    next.rest <:+ cursor.rest := by
  fun_induction tagEnd start cursor generalizing attrs with
  | case1 => cases h
  | case2 cursor offset rest hs =>
    cases h
    have := suffix_skipBlanks cursor
    rw [hs] at this
    exact (List.suffix_cons _ _).trans this
  | case3 cursor offset rest hs =>
    cases h
    have := suffix_skipBlanks cursor
    rw [hs] at this
    exact (List.suffix_cons _ _).trans ((List.suffix_cons _ _).trans this)
  | case4 => cases h
  | case5 => cases h
  | case6 cursor offset c rest _ _ hs lexeme middle ha hlt tail selfClosing' last ht ih =>
    cases h
    obtain ⟨other, hsuffix, name, hname⟩ := suffix_of_attr ha
    have := suffix_skipBlanks cursor
    rw [hs] at this
    exact (ih ht).trans (hsuffix.trans ((suffix_of_name hname).trans this))

theorem suffix_of_doctypeEnd {start depth : Nat} {quote : Option Char} {cursor next : Cursor}
    (h : cursor.doctypeEnd start depth quote = .ok next) : next.rest <:+ cursor.rest := by
  fun_induction doctypeEnd start depth quote cursor with
  | case1 => cases h
  | case2 depth cursor c rest hr _ next' q ih =>
    rw [hr]
    exact (ih h).trans (List.suffix_cons _ _)
  | case3 depth cursor c rest hr _ next' hq ih =>
    rw [hr]
    exact (ih h).trans (List.suffix_cons _ _)
  | case4 => cases h
  | case5 depth cursor rest _ _ middle hpast hr _ _ hlt ih =>
    rw [hr]
    exact (ih h).trans ((suffix_of_past hpast).trans
      ((List.drop_suffix _ _).trans (List.suffix_cons _ _)))
  | case6 => cases h
  | case7 depth cursor rest _ _ _ middle hpast hr _ _ hlt ih =>
    rw [hr]
    exact (ih h).trans ((suffix_of_past hpast).trans
      ((List.drop_suffix _ _).trans (List.suffix_cons _ _)))
  | case8 depth cursor rest _ _ hr _ next' _ ih =>
    rw [hr]
    exact (ih h).trans (List.suffix_cons _ _)
  | case9 cursor rest hr _ next' =>
    rw [hr, ← Except.ok.inj h]
    exact List.suffix_cons _ _
  | case10 cursor rest depth hr _ next' _ _ ih =>
    rw [hr]
    exact (ih h).trans (List.suffix_cons _ _)
  | case11 depth cursor c rest hr _ next' _ _ _ ih =>
    rw [hr]
    exact (ih h).trans (List.suffix_cons _ _)

theorem suffix_of_instruction {start : Nat} {rest : List Char} {form : TokenForm} {next : Cursor}
    (h : instruction start rest = .ok (form, next)) : next.rest <:+ rest := by
  unfold instruction at h
  split at h
  · cases h
  · rename_i hp
    have := suffix_of_past hp
    split at h
    · split at h
      · cases h
      · cases h
        exact this
    · cases h
      exact this

theorem suffix_of_closeTag {start : Nat} {rest : List Char} {form : TokenForm} {next : Cursor}
    (h : closeTag start rest = .ok (form, next)) : next.rest <:+ rest := by
  unfold closeTag at h
  split at h
  · cases h
  · rename_i name cursor hname
    split at h
    · rename_i offset after hs
      cases h
      have := suffix_skipBlanks cursor
      rw [hs] at this
      exact (List.suffix_cons _ _).trans (this.trans (suffix_of_name hname))
    · cases h

theorem suffix_of_openTag {start : Nat} {rest : List Char} {form : TokenForm} {next : Cursor}
    (h : openTag start rest = .ok (form, next)) : next.rest <:+ rest := by
  unfold openTag at h
  split at h
  · cases h
  · rename_i hname
    split at h
    · cases h
    · rename_i ht
      cases h
      exact (suffix_of_tagEnd ht).trans (suffix_of_name hname)

theorem suffix_of_map {rest : List Char} {k : Nat} {step : Except ScanFault Cursor}
    {form form' : TokenForm} {next : Cursor}
    (hstep : ∀ {cursor}, step = .ok cursor → cursor.rest <:+ rest.drop k)
    (h : step.map (form', ·) = .ok (form, next)) : next.rest <:+ rest := by
  cases step with
  | error fault => cases h
  | ok cursor =>
    cases h
    exact (hstep rfl).trans (List.drop_suffix _ _)

theorem suffix_of_markup {start : Nat} {rest : List Char} {form : TokenForm} {next : Cursor}
    (h : markup start rest = .ok (form, next)) : next.rest <:+ rest := by
  unfold markup at h
  split at h
  · exact (suffix_of_instruction h).trans (List.drop_suffix _ _)
  split at h
  · exact suffix_of_map suffix_of_past h
  split at h
  · exact suffix_of_map suffix_of_past h
  split at h
  · exact suffix_of_map suffix_of_doctypeEnd h
  split at h
  · exact (suffix_of_closeTag h).trans (List.drop_suffix _ _)
  · exact suffix_of_openTag h

/-- A token takes at least its first character. -/
theorem suffix_of_token {start : Nat} {c : Char} {rest : List Char} {form : TokenForm}
    {next : Cursor} (h : token start c rest = .ok (form, next)) : next.rest <:+ rest := by
  unfold token at h
  split at h
  · exact suffix_of_markup h
  split at h
  · split at h
    · rename_i hc
      cases h
      exact Text.suffix_of_cutAt hc
    · cases h
  · cases h
    exact List.dropWhile_suffix _

end Cursor

/-! ## All tokens -/

namespace Token

/-- The tokens of a text that starts at `offset`, up to the end or the first fault. -/
def scanFrom (offset : Nat) (text : List Char) : List Token × Option ScanFault :=
  match text with
  | [] => ([], none)
  | c :: rest =>
    match h : Cursor.token offset c rest with
    | .error fault => ([], some fault)
    | .ok (form, next) =>
      have : next.rest.length < rest.length + 1 :=
        Nat.lt_succ_of_le (Cursor.suffix_of_token h).length_le
      let raw := (c :: rest).take (rest.length + 1 - next.rest.length)
      let (tokens, fault) := scanFrom (offset + Text.byteSize raw) next.rest
      (⟨offset, raw, form⟩ :: tokens, fault)
termination_by text.length

/-- The tokens of a text. -/
def scan (text : List Char) : List Token × Option ScanFault := scanFrom 0 text

end Token

end XmlInspect
