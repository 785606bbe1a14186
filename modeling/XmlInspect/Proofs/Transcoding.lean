import XmlInspect.Proofs.Encoding
import XmlInspect.Proofs.Independence

/-!
# The encoding of a file

A text can be written in several Unicode forms, and a file that is written in another one is still
the same file. Two things make it so. A byte-order mark tells the forms apart before anything else
is looked at, so that an encoding which the text itself declares is not even read; and the layout of
`<?` does the same for UTF-16 without a mark. After that the charset is only remembered. Nothing
that is told about a source depends on it: not its parts, not the outcome of parsing it, and not
what the checks of this library find.
-/

namespace XmlInspect

/-! ## Forms -/

/-- The forms in which text is written as bytes. -/
inductive UnicodeForm where
  | utf8
  | utf16 (order : ByteOrder)

namespace UnicodeForm

/-- The bytes of a text. -/
def encode : UnicodeForm → List Char → List UInt8
  | utf8, text => Utf8.encode text
  | utf16 order, text => Utf16.encode order text

/-- The charset that reads the form. -/
def charset : UnicodeForm → Charset
  | utf8 => .utf8
  | utf16 .little => .utf16le
  | utf16 .big => .utf16be

variable (form : UnicodeForm) (text : List Char)

theorem decode_encode [EastAsianDecoder] : form.charset.decode (form.encode text) = .ok text := by
  rcases form with _ | ⟨_ | _⟩
  · simp only [charset, Charset.utf8, Charset.decode, Scheme.decode, encode, Utf8.decode_encode]
  · simp only [charset, Charset.utf16le, Charset.decode, Scheme.decode, encode,
      Utf16.decode_encode]
  · simp only [charset, Charset.utf16be, Charset.decode, Scheme.decode, encode,
      Utf16.decode_encode]

/-- A mark gives the form away, whatever comes after it. -/
theorem sniff_encode_mark :
    Charset.sniff (form.encode (Text.byteOrderMark :: text)) = form.charset := by
  rcases form with _ | ⟨_ | _⟩ <;> rfl

/-- So does the layout of `<?` in UTF-16. -/
theorem sniff_encode_markup (order : ByteOrder) :
    Charset.sniff ((utf16 order).encode ('<' :: '?' :: text)) = (utf16 order).charset := by
  rcases order with _ | _ <;> rfl

end UnicodeForm

/-! ## Nothing depends on the charset -/

namespace Source

/-- The source as if it had been decoded by another charset. -/
def withCharset (source : Source) (charset : Charset) : Source := { source with charset }

/-- Two sources are the same file, though maybe in different charsets. -/
structure Agrees (source other : Source) : Prop where
  uri : source.uri = other.uri
  marked : source.marked = other.marked
  content : source.content = other.content
  body : source.body = other.body
  bodyOffset : source.bodyOffset = other.bodyOffset
  shift : source.shift = other.shift
  hasPreamble : source.hasPreamble = other.hasPreamble
  lines : source.lines = other.lines

private theorem agrees_withCharset (source : Source) (charset : Charset) :
    (source.withCharset charset).Agrees source :=
  ⟨rfl, rfl, rfl, rfl, rfl, rfl, rfl, rfl⟩

theorem content_ofChars (uri : String) (charset : Charset) (text : List Char) :
    (ofChars uri charset text).content =
      if text.head? == some Text.byteOrderMark then text.drop 1 else text :=
  splitPreamble_append _

theorem ofBytes_of_decode [EastAsianDecoder] (uri : String) {bytes : List UInt8}
    {declared : Option Charset} {charset : Charset} {text : List Char}
    (hcharset : declared.getD (Charset.sniff bytes) = charset)
    (hdecode : charset.decode bytes = .ok text) :
    ofBytes uri bytes declared = .ok (ofChars uri charset text) := by
  rw [ofBytes, hcharset, hdecode]
  rfl

end Source

theorem Document.parse_withCharset (source : Source) (charset : Charset) (mode : NamespaceMode) :
    parse (source.withCharset charset) mode = parse source mode :=
  rfl

namespace XmlFile

/-- The file as if it had been decoded by another charset. -/
def withCharset (file : XmlFile) (charset : Charset) : XmlFile :=
  { file with source := file.source.withCharset charset }

theorem parse_withCharset (source : Source) (charset : Charset) :
    parse (source.withCharset charset) = (parse source).map (·.withCharset charset) := by
  rw [parse, parse, Document.parse_withCharset]
  cases Document.parse source .aware with
  | error error => rfl
  | ok document => rfl

end XmlFile

/-- The check finds the same in a file, whatever charset it was decoded by. -/
def Check.IgnoresCharset (check : Check) : Prop :=
  ∀ file charset settings state,
    check.scan (file.withCharset charset) settings state = check.scan file settings state

theorem Check.IgnoresCharset.found?_eq {check : Check} (h : check.IgnoresCharset) (file : XmlFile)
    (charset : Charset) (settings : Settings) :
    check.found? (file.withCharset charset) settings = check.found? file settings := by
  refine found?_congr fun issues ↦ ⟨fun hcompletes ↦ ?_, fun hcompletes ↦ ?_⟩
  · obtain ⟨hstart, hscan, hend⟩ := hcompletes
    rw [h] at hscan hend
    exact ⟨hstart, hscan, hend⟩
  · obtain ⟨hstart, hscan, hend⟩ := hcompletes
    rw [← h file charset] at hscan hend
    exact ⟨hstart, hscan, hend⟩

private theorem Indentation.visitAll_withCharset (config : Indentation) (file : XmlFile)
    (charset : Charset) (fuel : Nat) (stack : List Visit) (record : Record) :
    config.visitAll (file.withCharset charset) fuel stack record =
      config.visitAll file fuel stack record := by
  induction fuel generalizing stack record with
  | zero => rfl
  | succ fuel ih =>
    cases stack with
    | nil => rfl
    | cons visit stack =>
      cases visit with
      | element id level => exact ih _ _
      | closing id level => exact ih _ _

theorem Check.IsBuiltin.ignoresCharset {check : Check} (h : check.IsBuiltin) :
    check.IgnoresCharset := by
  intro file charset settings state
  cases h with
  | path config =>
    have hdocument : (file.withCharset charset).documentIn config.mode =
        file.documentIn config.mode := by
      cases config.mode with
      | aware => rfl
      | oblivious => exact Document.parse_withCharset file.source charset .oblivious
    simp only [PathRule.check, stateless, hdocument]
  | indentation config =>
    have hissues : config.issues (file.withCharset charset) = config.issues file := by
      unfold Indentation.issues
      simp only [Indentation.visitAll_withCharset]
      rfl
    simp only [Indentation.check, stateless, hissues]
  | prolog | newline | tab | endOfFile | comment => rfl

namespace Analyzer

private theorem parseErrorIssue_withCharset (source : Source) (charset : Charset) (error : Error) :
    parseErrorIssue (source.withCharset charset) error = parseErrorIssue source error := by
  cases error <;> rfl

/-- Whatever the charset of a file is, the same is found in it. -/
theorem analyzeAlone_congr [EastAsianDecoder] {analyzer : Analyzer} {input other : InputFile}
    {source : Source} {charset : Charset}
    (hchecks : ∀ check ∈ analyzer.checks, check.IgnoresCharset)
    (hinput : input.read = .ok (source.withCharset charset)) (hother : other.read = .ok source) :
    analyzer.analyzeAlone input = analyzer.analyzeAlone other := by
  unfold analyzeAlone analyze
  simp only [hinput, hother, analyzeSource, XmlFile.parse_withCharset]
  cases XmlFile.parse source with
  | error error =>
    simp only [Except.map, parseErrorIssue_withCharset]
  | ok file =>
    -- No check tells the two files apart, neither by what it finds nor by failing.
    have hfound : (analyzer.checks.flatMap fun check ↦
        (check.found? (file.withCharset charset) analyzer.settings).getD []) =
        analyzer.checks.flatMap fun check ↦ (check.found? file analyzer.settings).getD [] :=
      List.flatMap_congr fun check hcheck ↦ by rw [(hchecks check hcheck).found?_eq]
    have hfails : (analyzer.checks.filter fun check ↦
        check.fails (file.withCharset charset) analyzer.settings) =
        analyzer.checks.filter fun check ↦ check.fails file analyzer.settings :=
      List.filter_congr fun check hcheck ↦ by
        rw [Check.fails, (hchecks check hcheck).found?_eq, Check.fails]
    simp only [Except.map, runChecks_eq]
    rw [show (analyzer.enter .parsing).checks = analyzer.checks from rfl,
      show (analyzer.enter .parsing).settings = analyzer.settings from rfl, hfound, hfails]
    rfl

end Analyzer

/-! ## Files in a Unicode form -/

namespace InputFile

section

variable [EastAsianDecoder]

/-- A file that is read and analysed as a text in memory would be. -/
structure StandsFor [PatternEngine] (input : InputFile) (text : String) : Prop where
  exists_source : ∃ source, input.read = .ok source ∧ source.Agrees (.ofText input.uri text) ∧
    ∀ mode, Document.parse source mode = Document.parse (.ofText input.uri text) mode
  analyzeAlone_eq : ∀ config capabilities,
    (Analyzer.ofConfig config capabilities).analyzeAlone input =
      (Analyzer.ofConfig config capabilities).analyzeAlone (.ofText input.uri text)

theorem read_of_ofBytes {uri : String} {bytes : List UInt8} {declared : Option Charset}
    {source : Source} (h : Source.ofBytes uri bytes declared = .ok source) :
    (⟨uri, declared, .ok bytes⟩ : InputFile).read = .ok source :=
  congrArg (·.mapError Error.charset) h

theorem read_ofText (uri text : String) :
    (ofText uri text).read = .ok (Source.ofText uri text) := by
  have hdecode : Charset.utf8.decode text.toUTF8.toList = .ok text.toList := by
    rw [Utf8.toList_toUTF8]
    exact UnicodeForm.decode_encode .utf8 text.toList
  exact read_of_ofBytes (Source.ofBytes_of_decode uri rfl hdecode)

private theorem standsFor_of_sniff [PatternEngine] (uri : String) {form : UnicodeForm}
    {text : List Char} (h : Charset.sniff (form.encode text) = form.charset) :
    StandsFor ⟨uri, none, .ok (form.encode text)⟩ (String.ofList text) := by
  have hsource : Source.ofChars uri form.charset text =
      (Source.ofText uri (String.ofList text)).withCharset form.charset := by
    rw [Source.ofText, String.toList_ofList]
    rfl
  have hread : (⟨uri, none, .ok (form.encode text)⟩ : InputFile).read =
      .ok ((Source.ofText uri (String.ofList text)).withCharset form.charset) := by
    rw [← hsource]
    exact read_of_ofBytes (Source.ofBytes_of_decode uri h (form.decode_encode text))
  constructor
  case exists_source =>
    exact ⟨_, hread, Source.agrees_withCharset _ _, Document.parse_withCharset _ _⟩
  case analyzeAlone_eq =>
    intro config capabilities
    exact Analyzer.analyzeAlone_congr
      (fun _ hcheck ↦ (Config.isBuiltin_of_mem_checks hcheck).ignoresCharset) hread
      (read_ofText uri _)

/-- A text with a mark at its head is the same file in all Unicode forms, whatever encoding it may
declare. Without a mark, UTF-16 is still known by the layout of `<?`. -/
theorem standsFor_encode [PatternEngine] (uri : String) (text : List Char) :
    let marked := Text.byteOrderMark :: text
    ((Source.ofText uri (String.ofList marked)).content = text ∧
      (Source.ofText uri (String.ofList marked)).marked = true ∧
      ∀ form : UnicodeForm,
        StandsFor ⟨uri, none, .ok (form.encode marked)⟩ (String.ofList marked)) ∧
    (['<', '?'] <+: text →
      (Source.ofText uri (String.ofList text)).content = text ∧
      ∀ order, StandsFor ⟨uri, none, .ok ((UnicodeForm.utf16 order).encode text)⟩
        (String.ofList text)) := by
  intro marked
  refine ⟨⟨?_, ?_, fun form ↦ ?_⟩, ?_⟩
  · rw [Source.ofText, String.toList_ofList, Source.content_ofChars]
    rfl
  · rw [Source.ofText, String.toList_ofList]
    rfl
  · exact standsFor_of_sniff uri (form.sniff_encode_mark text)
  · rintro ⟨rest, rfl⟩
    constructor
    · rw [Source.ofText, String.toList_ofList, Source.content_ofChars]
      rfl
    · intro order
      exact standsFor_of_sniff uri (UnicodeForm.sniff_encode_markup rest order)

end

/-- The text declares an encoding that it is not written in, and holds a character beyond the
basic plane. -/
theorem standsFor_encode_declared :
    let text := "<?xml version='1.0' encoding='latin1'?><a>é𝄞</a>".toList
    ['<', '?'] <+: text ∧
      ∃ source, (⟨"a.xml", none, .ok (Utf16.encode .big text)⟩ : InputFile).read = .ok source ∧
        source.content = text ∧ source.marked = false := by
  intro text
  have hmarkup : ['<', '?'] <+: text := ⟨text.drop 2, by decide⟩
  obtain ⟨hcontent, hstands⟩ := (standsFor_encode "a.xml" text).2 hmarkup
  obtain ⟨source, hread, hagrees, -⟩ := (hstands .big).exists_source
  refine ⟨hmarkup, source, hread, hagrees.content.trans hcontent, hagrees.marked.trans ?_⟩
  decide

end InputFile

end XmlInspect
