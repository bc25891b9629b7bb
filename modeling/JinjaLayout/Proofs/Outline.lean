import Mathlib
import JinjaLayout.Proofs.Delimiters

/-!
The pieces of a whole template with stock delimiters: data, comments, raw blocks and tags, one after
the other. The scanner finds pieces exactly where this outline puts them, if it also finds every
token inside the tags.
-/

namespace JinjaLayout.Scan

open JinjaLayout.Text List

def startsLineAfter : Option Char → Bool
  | none => true
  | some c => c == '\n'

/-- The number of characters before a marker that stay data. -/
def leadLength (env : Environment) (previous : Option Char) (kind : MarkerKind) (chomp : Chomp)
    (data : Text) : Nat :=
  if chomp = .strip then (trimEnd isBlank data).length
  else if env.lstripBlocks ∧ chomp ≠ .keep ∧ (kind = .block ∨ kind = .comment) then
    let trimmed := trimEnd isIndent data
    if (if trimmed.isEmpty then startsLineAfter previous else trimmed.getLast? == some '\n') then
      trimmed.length
    else data.length
  else data.length

/-- The data before a marker, and the whitespace that the marker removes from it. -/
def leadCuts (kept : Nat) (data : Text) : List Cut :=
  someCut .data (data.take kept) ++ someCut .whitespace (data.drop kept)

@[simp]
theorem textOfCuts_leadCuts (kept : Nat) (data : Text) : textOfCuts (leadCuts kept data) = data := by
  simp [leadCuts]

theorem length_trimEnd_le (p : Char → Bool) (text : Text) :
    (trimEnd p text).length ≤ text.length := by
  rw [trimEnd, length_reverse, ← text.length_reverse]
  exact (dropWhile_suffix p).length_le

theorem leadLength_le (env : Environment) (previous : Option Char) (kind : MarkerKind)
    (chomp : Chomp) (data : Text) : leadLength env previous kind chomp data ≤ data.length := by
  simp only [leadLength]
  split_ifs <;> simp [length_trimEnd_le]

variable {scan result : Scan} {data more tail after gap tail' after' : Text} {env : Environment}
  {chomp sign first : Chomp} {tagEnd : TagEnd} {inside cuts : List Cut} {kind : MarkerKind}
  {previous : Option Char}

theorem keptLength_eq_leadLength (env : Environment) {marker : Marker}
    (hdata : scan.rest.take marker.start = data) :
    scan.keptLength env marker =
      leadLength env scan.previous marker.kind (marker.chomp scan.rest) data := by
  unfold keptLength
  rw [hdata]
  rfl

theorem reaches_readData (env : Environment) {marker : Marker} (hrest : scan.rest = data ++ more)
    (hstart : marker.start = data.length) :
    Reaches scan (leadCuts (leadLength env scan.previous marker.kind (marker.chomp scan.rest) data)
      data) (scan.readData env marker) ∧ (scan.readData env marker).rest = more := by
  have hkept : scan.keptLength env marker =
      leadLength env scan.previous marker.kind (marker.chomp scan.rest) data :=
    keptLength_eq_leadLength env (by rw [hrest, hstart, take_left])
  have hle := leadLength_le env scan.previous marker.kind (marker.chomp scan.rest) data
  rw [← hkept] at hle ⊢
  unfold readData leadCuts
  have hsplit : scan.rest = data.take (scan.keptLength env marker) ++
      (data.drop (scan.keptLength env marker) ++ more) := by
    rw [hrest, ← append_assoc, take_append_drop]
  obtain ⟨hfirst, hmiddle⟩ := reaches_pushSome_of_rest .data hsplit
  obtain ⟨hsecond, hlast⟩ := reaches_pushSome_of_rest .whitespace hmiddle
  rw [length_take_of_le hle] at hfirst hsecond hlast
  rw [length_drop] at hsecond hlast
  rw [hstart]
  exact ⟨hfirst.trans hsecond, hlast⟩

/-- The whitespace that the end of a tag removes. -/
def tailText (env : Environment) (chomp : Chomp) (trims : Bool) (rest : Text) : Text :=
  match chomp with
  | .strip => rest.takeWhile isBlank
  | .keep => []
  | .none => if trims && env.trimBlocks && rest.head? == some '\n' then ['\n'] else []

theorem reaches_readTail {trims : Bool} (hrest : scan.rest = tail ++ after)
    (htail : tailText env chomp trims (tail ++ after) = tail) :
    Reaches scan (someCut .whitespace tail) (scan.readTail env chomp trims) ∧
      (scan.readTail env chomp trims).rest = after := by
  have hpush := reaches_pushSome_of_rest .whitespace hrest
  unfold readTail
  unfold tailText at htail
  cases chomp with
  | strip =>
      dsimp only at htail ⊢
      rw [hrest, htail]
      exact hpush
  | keep =>
      obtain rfl : [] = tail := htail
      exact hpush
  | none =>
      dsimp only at htail ⊢
      rw [hrest]
      split
      · rename_i hnewline
        rw [if_pos hnewline] at htail
        subst htail
        exact hpush
      · rename_i hnewline
        rw [if_neg hnewline] at htail
        subst htail
        exact hpush

theorem exists_tailText (env : Environment) (chomp : Chomp) (trims : Bool) (rest : Text) :
    ∃ after, rest = tailText env chomp trims rest ++ after := by
  unfold tailText
  split
  · exact ⟨rest.dropWhile isBlank, takeWhile_append_dropWhile.symm⟩
  · exact ⟨rest, rfl⟩
  · split
    · rename_i hnewline
      simp only [Bool.and_eq_true, beq_iff_eq] at hnewline
      cases rest with
      | nil => simp at hnewline
      | cons c rest =>
          obtain rfl : c = '\n' := by simpa using hnewline.2
          exact ⟨rest, rfl⟩
    · exact ⟨rest, rfl⟩

/-- What the begin delimiter of a tag opens. -/
def TagEnd.marker : TagEnd → MarkerKind
  | .block => .block
  | .variable => .variable
  | .line => .lineStatement

def TagEnd.beginKind : TagEnd → TokenKind
  | .block => .blockBegin
  | .variable => .variableBegin
  | .line => .lineStatementBegin

/-- The stock begin delimiter. -/
def TagEnd.opening : TagEnd → Text
  | .block => ['{', '%']
  | .variable => ['{', '{']
  | .line => []

def TagEnd.closing : TagEnd → Text
  | .block => ['%', '}']
  | .variable => ['}', '}']
  | .line => []

theorem TagEnd.eq_of_ne_line (h : tagEnd ≠ .line) :
    tagEnd = .block ∨ tagEnd = .variable := by
  cases tagEnd <;> simp_all

theorem ending?_eq_some_iff (hstock : env.IsStock) (hline : tagEnd ≠ .line) {text : Text}
    {length : Nat} :
    ending? env tagEnd text = some (length, chomp) ↔
      chomp.sign ++ tagEnd.closing <+: text ∧ length = chomp.width + 2 := by
  rcases TagEnd.eq_of_ne_line hline with rfl | rfl
  · cases text with
    | nil => simp [ending?, TagEnd.closing]
    | cons c text =>
        have hblock : ending? env .block (c :: text) = endDelimiter? ['%', '}'] (c :: text) := by
          rw [← hstock.blockEnd]
          rfl
        rw [hblock]
        exact endDelimiter?_eq_some_iff (by decide) (by decide)
  · cases text with
    | nil => simp [ending?, TagEnd.closing]
    | cons c text =>
        have hvariable : ending? env .variable (c :: text) =
            endDelimiter? ['}', '}'] (c :: text) := by
          rw [← hstock.variableEnd]
          rfl
        rw [hvariable]
        exact endDelimiter?_eq_some_iff (by decide) (by decide)

def tagCuts (tagEnd : TagEnd) (sign : Chomp) (inside : List Cut) (chomp : Chomp) (tail : Text) :
    List Cut :=
  (tagEnd.beginKind, tagEnd.opening ++ sign.sign) ::
    (inside ++ (tagEnd.kind, chomp.sign ++ tagEnd.closing) :: someCut .whitespace tail)

def commentCuts (sign : Chomp) (body : Text) (chomp : Chomp) (tail : Text) : List Cut :=
  (.commentBegin, ['{', '#'] ++ sign.sign) ::
    (someCut .comment body ++
      (.commentEnd, chomp.sign ++ ['#', '}']) :: someCut .whitespace tail)

def rawCuts (env : Environment) (opening gap data closing tail : Text) : List Cut :=
  (.rawBegin, opening) :: (someCut .whitespace gap ++
    (leadCuts (leadLength env (lastChar opening.getLast? gap) .block
      (Chomp.atStart (closing.drop 2)) data) data ++
      (.rawEnd, closing) :: someCut .whitespace tail))

/-- The pieces that a marker opens, with the whitespace that their end removes. -/
inductive Opened (env : Environment) : MarkerKind → List Cut → Text → Prop where
  | tag {tagEnd : TagEnd} {sign chomp : Chomp} {inside : List Cut} {tail after : Text}
      (hline : tagEnd ≠ .line)
      (hsign : sign = .none → Chomp.atStart (textOfCuts inside ++
        (chomp.sign ++ tagEnd.closing ++ (tail ++ after))) = .none)
      (hraw : tagEnd = .block → wordTag? env "raw" (tagEnd.opening ++ sign.sign ++
        (textOfCuts inside ++ (chomp.sign ++ tagEnd.closing ++ (tail ++ after)))) = none)
      (hinside : Inside env tagEnd [] inside (chomp.sign ++ tagEnd.closing ++ (tail ++ after)))
      (htail : tailText env chomp (tagEnd == .block) (tail ++ after) = tail) :
      Opened env tagEnd.marker (tagCuts tagEnd sign inside chomp tail) after
  | comment {sign chomp : Chomp} {body tail after : Text}
      (hsign : sign = .none → Chomp.atStart (body ++ (chomp.sign ++ ['#', '}'])) = .none)
      (hbody : position? ['#', '}'] (body ++ chomp.sign) = none)
      (hchomp : Chomp.ofChar? (body ++ chomp.sign).getLast? = chomp)
      (htail : tailText env chomp true (tail ++ after) = tail) :
      Opened env .comment (commentCuts sign body chomp tail) after
  | raw {opening gap data closing tail after : Text} {first last : Chomp}
      (hopening : WordTag "raw" opening first)
      (hgap : tailText env first true (gap ++ (data ++ (closing ++ (tail ++ after)))) = gap)
      (hclosing : WordTag "endraw" closing last)
      (hdata : endRaw? env (data ++ (closing ++ (tail ++ after))) =
        some (data.length, closing.length, last))
      (htail : tailText env last true (tail ++ after) = tail) :
      Opened env .block (rawCuts env opening gap data closing tail) after

/-- The pieces of a template from some place to its end. -/
inductive Shaped (env : Environment) : Option Char → List Cut → Prop where
  | nil {previous : Option Char} : Shaped env previous []
  | data {previous : Option Char} {data : Text} (hsome : data ≠ [])
      (hdata : Marker.first? data = none) : Shaped env previous [(.data, data)]
  | opened {previous : Option Char} {data : Text} {kind : MarkerKind} {cuts more : List Cut}
      (hdata : Marker.first? (data ++ ['{']) = none)
      (hopened : Opened env kind cuts (textOfCuts more))
      (hmore : Shaped env (lastChar previous (data ++ textOfCuts cuts)) more) :
      Shaped env previous (leadCuts (leadLength env previous kind
        (Chomp.atStart ((textOfCuts cuts).drop 2)) data) data ++ (cuts ++ more))

/-! ### Reading what the outline holds -/

theorem textOfCuts_tagCuts (tagEnd : TagEnd) (sign : Chomp) (inside : List Cut) (chomp : Chomp)
    (tail after : Text) :
    textOfCuts (tagCuts tagEnd sign inside chomp tail) ++ after = tagEnd.opening ++ sign.sign ++
      (textOfCuts inside ++ (chomp.sign ++ tagEnd.closing ++ (tail ++ after))) := by
  simp [tagCuts]

theorem TagEnd.length_opening (hline : tagEnd ≠ .line) :
    tagEnd.opening.length = 2 := by
  rcases TagEnd.eq_of_ne_line hline with rfl | rfl <;> rfl

theorem TagEnd.length_closing (hline : tagEnd ≠ .line) :
    tagEnd.closing.length = 2 := by
  rcases TagEnd.eq_of_ne_line hline with rfl | rfl <;> rfl

theorem signedLength_eq {marker : Marker} {opening : Text}
    (hmarker : marker.length = opening.length) (hrest : scan.rest = opening ++ sign.sign ++ more)
    (hsign : sign = .none → Chomp.atStart more = .none) :
    scan.signedLength marker = (opening ++ sign.sign).length := by
  rw [signedLength, hrest, hmarker, append_assoc, drop_left,
    Chomp.atStart_sign_append hsign, length_append, Chomp.width]

theorem readTagFrom_of_inside (hstock : env.IsStock) (hline : tagEnd ≠ .line)
    (hinside : Inside env tagEnd [] inside (chomp.sign ++ tagEnd.closing ++ (tail ++ after)))
    (htail : tailText env chomp (tagEnd == .block) (tail ++ after) = tail)
    (hrest : scan.rest = textOfCuts (tagCuts tagEnd sign inside chomp tail) ++ after)
    (hread : AllRead TokenKind.isWord scan.previous (tagCuts tagEnd sign inside chomp tail) after) :
    ∃ stop, Reaches scan (tagCuts tagEnd sign inside chomp tail) stop ∧ stop.rest = after ∧
      scan.readTagFrom env tagEnd tagEnd.beginKind (tagEnd.opening ++ sign.sign).length =
        .ok stop := by
  rw [textOfCuts_tagCuts] at hrest
  obtain ⟨hbegin, hinsideRest⟩ := reaches_push_of_rest tagEnd.beginKind hrest
  have hreadInside : AllRead TokenKind.isWord
      (scan.push tagEnd.beginKind (tagEnd.opening ++ sign.sign).length).previous inside
      (chomp.sign ++ tagEnd.closing ++ (tail ++ after)) := by
    have hboth := ((allRead_append ..).mp ((allRead_cons ..).mp hread).2).1
    rw [hbegin.previous_eq]
    simpa using hboth
  have hbound : inside.length <
      (scan.push tagEnd.beginKind (tagEnd.opening ++ sign.sign).length).rest.length + 1 := by
    have hle := hinside.length_le
    rw [hinsideRest, length_append]
    omega
  obtain ⟨stop, length, found, hstop, hstopRest, hending, hrun⟩ :=
    readTag_of_inside hinside _ _ hbound hreadInside hinsideRest
  obtain ⟨rfl, rfl⟩ : found = chomp ∧ length = (chomp.sign ++ tagEnd.closing).length := by
    have hclosing : ending? env tagEnd (chomp.sign ++ tagEnd.closing ++ (tail ++ after)) =
        some (chomp.width + 2, chomp) :=
      (ending?_eq_some_iff hstock hline).mpr ⟨prefix_append _ _, rfl⟩
    rw [hclosing] at hending
    obtain ⟨rfl, rfl⟩ : chomp.width + 2 = length ∧ chomp = found := by simpa using hending
    simp [Chomp.width, TagEnd.length_closing hline]
  obtain ⟨hend, hendRest⟩ := reaches_push_of_rest tagEnd.kind hstopRest
  obtain ⟨hlast, hlastRest⟩ := reaches_readTail hendRest htail
  refine ⟨_, ?_, hlastRest, hrun⟩
  exact hbegin.trans (hstop.trans (hend.trans hlast))

theorem readComment_of_body {env : Environment} (hstock : env.IsStock) {sign chomp : Chomp}
    {body tail after : Text}
    (hsign : sign = .none → Chomp.atStart (body ++ (chomp.sign ++ ['#', '}'])) = .none)
    (hbody : position? ['#', '}'] (body ++ chomp.sign) = none)
    (hchomp : Chomp.ofChar? (body ++ chomp.sign).getLast? = chomp)
    (htail : tailText env chomp true (tail ++ after) = tail) {scan : Scan}
    (hrest : scan.rest = textOfCuts (commentCuts sign body chomp tail) ++ after) :
    ∃ stop, Reaches scan (commentCuts sign body chomp tail) stop ∧ stop.rest = after ∧
      scan.readComment env = .ok stop := by
  have htext : scan.rest = ['{', '#'] ++ sign.sign ++
      (body ++ (chomp.sign ++ ['#', '}'] ++ (tail ++ after))) := by
    simp [hrest, commentCuts]
  have hfirst : Chomp.atStart (scan.rest.drop 2) = sign := by
    rw [htext]
    refine Chomp.atStart_sign_append fun hnone => ?_
    have hhead : (body ++ (chomp.sign ++ ['#', '}'])).head? =
        (body ++ (chomp.sign ++ ['#', '}'] ++ (tail ++ after))).head? := by
      simp [head?_append]
    rw [Chomp.atStart, ← hhead]
    exact hsign hnone
  obtain ⟨hbegin, hbodyRest⟩ := reaches_push_of_rest .commentBegin htext
  have hposition : position? ['#', '}'] (body ++ (chomp.sign ++ ['#', '}'] ++ (tail ++ after))) =
      some (body ++ chomp.sign).length := by
    have hfound := (position?_commentEnd_iff (tail ++ after)).mpr hbody
    simpa using hfound
  have htake : (body ++ (chomp.sign ++ ['#', '}'] ++ (tail ++ after))).take
      (body ++ chomp.sign).length = body ++ chomp.sign := by
    rw [show body ++ (chomp.sign ++ ['#', '}'] ++ (tail ++ after)) =
      (body ++ chomp.sign) ++ (['#', '}'] ++ (tail ++ after)) by simp, take_left]
  obtain ⟨hcomment, hendRest⟩ := reaches_pushSome_of_rest .comment hbodyRest
  obtain ⟨hend, htailRest⟩ := reaches_push_of_rest .commentEnd hendRest
  obtain ⟨hlast, hlastRest⟩ := reaches_readTail htailRest htail
  refine ⟨_, hbegin.trans (hcomment.trans (hend.trans hlast)), hlastRest, ?_⟩
  have hwidth : (['{', '#'] ++ sign.sign).length = 2 + sign.width := by simp [Chomp.width]; omega
  have hbodyLength : (body ++ chomp.sign).length - chomp.width = body.length := by
    simp [Chomp.width]
  have hendLength : (chomp.sign ++ ['#', '}']).length = chomp.width + 2 := by simp [Chomp.width]
  simp only [readComment, hstock.commentStart, hstock.commentEnd, length_cons,
    length_nil, Nat.zero_add, Nat.reduceAdd, hfirst]
  rw [← hwidth, hbodyRest, hposition]
  simp only [htake, hchomp, hbodyLength]
  rw [hendLength]

theorem textOfCuts_rawCuts (env : Environment) (opening gap data closing tail after : Text) :
    textOfCuts (rawCuts env opening gap data closing tail) ++ after =
      opening ++ (gap ++ (data ++ (closing ++ (tail ++ after)))) := by
  simp [rawCuts]

theorem WordTag.exists_cons {word opening : Text} (h : WordTag word opening chomp) :
    ∃ c more, opening = '{' :: '%' :: c :: more := by
  obtain ⟨sign, before, after, -, -, rfl⟩ := h
  have hsome : sign.sign ++ (before ++ (word ++ (after ++ (chomp.sign ++ ['%', '}'])))) ≠ [] := by
    simp
  obtain ⟨c, more, hcons⟩ := exists_cons_of_ne_nil hsome
  exact ⟨c, more, by simp only [hcons]; rfl⟩

theorem readRaw_of_parts (hstock : env.IsStock) {opening closing : Text} {last : Chomp}
    (hopening : WordTag "raw" opening first)
    (hgap : tailText env first true (gap ++ (data ++ (closing ++ (tail ++ after)))) = gap)
    (hclosing : WordTag "endraw" closing last)
    (hdata : endRaw? env (data ++ (closing ++ (tail ++ after))) =
      some (data.length, closing.length, last))
    (htail : tailText env last true (tail ++ after) = tail)
    (hrest : scan.rest = textOfCuts (rawCuts env opening gap data closing tail) ++ after) :
    ∃ stop, Reaches scan (rawCuts env opening gap data closing tail) stop ∧ stop.rest = after ∧
      ((scan.push .rawBegin opening.length).readTail env first true).readRaw env = .ok stop := by
  rw [textOfCuts_rawCuts] at hrest
  obtain ⟨hbegin, hbeginRest⟩ := reaches_push_of_rest .rawBegin hrest
  obtain ⟨hgapReach, hgapRest⟩ := reaches_readTail hbeginRest hgap
  obtain ⟨c, more, rfl⟩ := hclosing.exists_cons
  let marker : Marker := ⟨data.length, .block, 2⟩
  obtain ⟨hdataReach, hdataRest⟩ := reaches_readData env hgapRest (show marker.start = data.length from rfl)
  obtain ⟨hend, hendRest⟩ := reaches_push_of_rest .rawEnd hdataRest
  obtain ⟨hlast, hlastRest⟩ := reaches_readTail hendRest htail
  have hopeningSome : opening ≠ [] := by
    obtain ⟨_, _, rfl⟩ := hopening.exists_cons
    simp
  have hprevious : ((scan.push .rawBegin opening.length).readTail env first true).previous =
      lastChar opening.getLast? gap := by
    rw [hgapReach.previous_eq, hbegin.previous_eq]
    simp [lastChar_of_ne_nil _ hopeningSome]
  have hchomp : marker.chomp ((scan.push .rawBegin opening.length).readTail env first true).rest =
      .atStart (('{' :: '%' :: c :: more).drop 2) := by
    rw [hgapRest]
    simp only [Marker.chomp, marker, ← drop_drop, drop_left]
    rfl
  rw [hprevious, hchomp] at hdataReach
  refine ⟨_, hbegin.trans (hgapReach.trans (hdataReach.trans (hend.trans hlast))), hlastRest, ?_⟩
  rw [readRaw, hgapRest, rawEnd?_eq_endRaw? hstock, hdata]
  simp only [hstock.blockStart]
  rfl

theorem readMarked_of_opened (hstock : env.IsStock) (h : Opened env kind cuts after)
    {marker : Marker} (hkind : marker.kind = kind) (hlength : marker.length = 2)
    (hrest : scan.rest = textOfCuts cuts ++ after)
    (hread : AllRead TokenKind.isWord scan.previous cuts after) :
    ∃ stop, Reaches scan cuts stop ∧ stop.rest = after ∧ scan.readMarked env marker = .ok stop := by
  cases h with
  | @tag tagEnd sign chomp inside tail _ hline hsign hraw hinside htail =>
      obtain ⟨stop, hreach, hstop, hrun⟩ :=
        readTagFrom_of_inside hstock hline hinside htail hrest hread
      refine ⟨stop, hreach, hstop, ?_⟩
      rw [textOfCuts_tagCuts] at hrest
      rw [← signedLength_eq (hlength.trans (TagEnd.length_opening hline).symm) hrest hsign] at hrun
      rcases TagEnd.eq_of_ne_line hline with rfl | rfl
      · rw [readMarked, hkind]
        simp only [TagEnd.marker, hrest, hraw rfl]
        exact hrun
      · rw [readMarked, hkind]
        exact hrun
  | comment hsign hbody hchomp htail =>
      obtain ⟨stop, hreach, hstop, hrun⟩ :=
        readComment_of_body hstock hsign hbody hchomp htail hrest
      refine ⟨stop, hreach, hstop, ?_⟩
      rw [readMarked, hkind]
      exact hrun
  | raw hopening hgap hclosing hdata htail =>
      obtain ⟨stop, hreach, hstop, hrun⟩ :=
        readRaw_of_parts hstock hopening hgap hclosing hdata htail hrest
      refine ⟨stop, hreach, hstop, ?_⟩
      rw [textOfCuts_rawCuts] at hrest
      have hword : wordTag? env "raw" scan.rest = some (_, _) :=
        (wordTag?_raw_iff hstock).mpr ⟨_, hopening, ⟨_, hrest.symm⟩, rfl⟩
      rw [readMarked, hkind]
      simp only [hword]
      exact hrun

theorem Opened.exists_cons (h : Opened env kind cuts after) :
    ∃ c d more, textOfCuts cuts = '{' :: c :: d :: more ∧ Marker.kindOf? c = some kind := by
  cases h with
  | @tag tagEnd sign chomp inside tail _ hline =>
      have hsome : sign.sign ++ (textOfCuts inside ++ (chomp.sign ++ tagEnd.closing ++ tail)) ≠
          [] := by
        intro hnil
        have hlength := congrArg length hnil
        simp [TagEnd.length_closing hline] at hlength
      obtain ⟨d, more, hcons⟩ := exists_cons_of_ne_nil hsome
      have htext : textOfCuts (tagCuts tagEnd sign inside chomp tail) =
          tagEnd.opening ++ d :: more := by
        rw [← hcons]
        simp [tagCuts]
      rcases TagEnd.eq_of_ne_line hline with rfl | rfl
      · exact ⟨'%', d, more, htext, rfl⟩
      · exact ⟨'{', d, more, htext, rfl⟩
  | @comment sign chomp body tail =>
      have hsome : sign.sign ++ (body ++ (chomp.sign ++ ['#', '}'] ++ tail)) ≠ [] := by simp
      obtain ⟨d, more, hcons⟩ := exists_cons_of_ne_nil hsome
      have htext : textOfCuts (commentCuts sign body chomp tail) = '{' :: '#' :: d :: more := by
        rw [← hcons]
        simp [commentCuts]
      exact ⟨'#', d, more, htext, rfl⟩
  | raw hopening =>
      obtain ⟨d, more, rfl⟩ := hopening.exists_cons
      exact ⟨'%', d, _, by simp [rawCuts]; rfl, rfl⟩

theorem Opened.chomp_eq (h : Opened env kind cuts after) (data : Text) :
    Marker.chomp ⟨data.length, kind, 2⟩ (data ++ (textOfCuts cuts ++ after)) =
      Chomp.atStart ((textOfCuts cuts).drop 2) := by
  obtain ⟨c, d, behind, htext, hc⟩ := h.exists_cons
  have hkind : Marker.kindOf? c = some (Marker.mk data.length kind 2).kind := hc
  rw [Marker.chomp_of_kindOf? hkind, ← drop_drop, drop_left, htext]
  rfl

theorem first?_opened {env : Environment} {kind : MarkerKind} {cuts : List Cut} {after data : Text}
    (h : Opened env kind cuts after) (hdata : Marker.first? (data ++ ['{']) = none) :
    Marker.first? (data ++ (textOfCuts cuts ++ after)) = some (data.length, kind) := by
  obtain ⟨c, d, behind, htext, hc⟩ := h.exists_cons
  have hstart : Marker.atStart? ('{' :: c :: (d :: behind ++ after)) = some kind := by
    rw [Marker.atStart?_cons_cons, if_pos rfl, hc]
  rw [htext]
  exact Marker.first?_append hdata hstart

theorem readAll_of_shaped (hstock : env.IsStock) (h : Shaped env previous cuts) :
    ∀ (bound : Nat) (scan : Scan), scan.rest = textOfCuts cuts → scan.previous = previous →
      AllRead TokenKind.isWord previous cuts [] → (textOfCuts cuts).length < bound →
      ∃ stop, Reaches scan cuts stop ∧ stop.rest = [] ∧ readAll env bound scan = .ok stop := by
  induction h with
  | nil =>
      intro bound scan hrest _ _ hbound
      obtain ⟨bound, rfl⟩ : ∃ n, bound = n + 1 := Nat.exists_eq_add_one.mpr hbound
      exact ⟨scan, Reaches.refl scan, hrest, by simp [readAll, hrest]⟩
  | @data previous data hsome hdata =>
      intro bound scan hrest _ _ hbound
      obtain ⟨bound, rfl⟩ : ∃ n, bound = n + 1 :=
        Nat.exists_eq_add_one.mpr (Nat.zero_lt_of_lt hbound)
      simp only [textOfCuts_cons, textOfCuts_nil] at hrest
      obtain ⟨hreach, hstop⟩ := reaches_push_of_rest .data hrest
      refine ⟨_, hreach, hstop, ?_⟩
      rw [append_nil] at hrest
      rw [readAll, hrest, if_neg hsome, Marker.next?_eq_first? hstock, hdata]
      rfl
  | @opened previous data kind cuts more hdata hopened hmore ih =>
      intro bound scan hrest hprevious hread hbound
      obtain ⟨bound, rfl⟩ : ∃ n, bound = n + 1 :=
        Nat.exists_eq_add_one.mpr (Nat.zero_lt_of_lt hbound)
      obtain ⟨c, d, behind, htext, hc⟩ := hopened.exists_cons
      rw [textOfCuts_append, textOfCuts_leadCuts, textOfCuts_append] at hrest hbound
      have hnext : Marker.next? env scan.startsLine scan.rest = some ⟨data.length, kind, 2⟩ := by
        rw [Marker.next?_eq_first? hstock, hrest, first?_opened hopened hdata]
        rfl
      have hchomp : Marker.chomp ⟨data.length, kind, 2⟩ scan.rest =
          Chomp.atStart ((textOfCuts cuts).drop 2) := by
        rw [hrest]
        exact hopened.chomp_eq data
      obtain ⟨hlead, hleadRest⟩ := reaches_readData env hrest
        (show (Marker.mk data.length kind 2).start = data.length from rfl)
      rw [hchomp, hprevious] at hlead
      obtain ⟨-, hreadRest⟩ := (allRead_append ..).mp hread
      obtain ⟨hreadCuts, hreadMore⟩ := (allRead_append ..).mp hreadRest
      have hpreviousLead := hlead.previous_eq
      rw [textOfCuts_leadCuts] at hreadCuts hreadMore hpreviousLead
      rw [hprevious] at hpreviousLead
      rw [append_nil, ← hpreviousLead] at hreadCuts
      obtain ⟨middle, hmiddle, hmiddleRest, hrun⟩ :=
        readMarked_of_opened hstock hopened (show (Marker.mk data.length kind 2).kind = kind from rfl)
          rfl hleadRest hreadCuts
      have hpreviousMiddle := hmiddle.previous_eq
      rw [hpreviousLead, ← lastChar_append] at hpreviousMiddle
      rw [← lastChar_append] at hreadMore
      have hshorter : (textOfCuts more).length < bound := by
        rw [htext] at hbound
        simp only [length_append, length_cons] at hbound
        omega
      obtain ⟨stop, hstop, hstopRest, hrunMore⟩ :=
        ih bound middle hmiddleRest hpreviousMiddle hreadMore hshorter
      refine ⟨stop, hlead.trans (hmiddle.trans hstop), hstopRest, ?_⟩
      have hsome : scan.rest ≠ [] := by
        rw [hrest, htext]
        simp
      rw [readAll, if_neg hsome, hnext]
      simp only [hrun]
      exact hrunMore

/-! ### The outline of what was read -/

theorem allRead_tagCuts
    (h : AllRead TokenKind.isWord (lastChar previous (tagEnd.opening ++ sign.sign)) inside
      (chomp.sign ++ tagEnd.closing ++ (tail ++ after))) :
    AllRead TokenKind.isWord previous (tagCuts tagEnd sign inside chomp tail) after := by
  have hbegin : tagEnd.beginKind.isWord = false := by cases tagEnd <;> rfl
  have hend : tagEnd.kind.isWord = false := by cases tagEnd <;> rfl
  refine ⟨by simp [hbegin], (allRead_append ..).mpr ⟨by simpa using h, ?_⟩⟩
  refine allRead_of_none ?_ _ _
  intro cut hcut
  simp only [mem_cons, mem_someCut] at hcut
  rcases hcut with rfl | ⟨-, rfl⟩
  · exact hend
  · rfl

theorem exists_of_readTagFrom (hstock : env.IsStock) (hline : tagEnd ≠ .line)
    (hrest : scan.rest = tagEnd.opening ++ more)
    (h : scan.readTagFrom env tagEnd tagEnd.beginKind (2 + (Chomp.atStart more).width) =
      .ok result) :
    ∃ (sign chomp : Chomp) (inside : List Cut) (tail : Text),
      (sign = .none → Chomp.atStart (textOfCuts inside ++
        (chomp.sign ++ tagEnd.closing ++ (tail ++ result.rest))) = .none) ∧
      Inside env tagEnd [] inside (chomp.sign ++ tagEnd.closing ++ (tail ++ result.rest)) ∧
      tailText env chomp (tagEnd == .block) (tail ++ result.rest) = tail ∧
      AllRead TokenKind.isWord scan.previous (tagCuts tagEnd sign inside chomp tail) result.rest ∧
      Reaches scan (tagCuts tagEnd sign inside chomp tail) result := by
  obtain ⟨behind, hmore, hsign, -⟩ := Chomp.exists_of_atStart more
  generalize Chomp.atStart more = sign at hmore hsign h
  subst hmore
  rw [← append_assoc] at hrest
  have hlength : 2 + sign.width = (tagEnd.opening ++ sign.sign).length := by
    simp [TagEnd.length_opening hline, Chomp.width]
  obtain ⟨hbegin, hbeginRest⟩ := reaches_push_of_rest tagEnd.beginKind hrest
  rw [readTagFrom, hlength] at h
  obtain ⟨inside, stop, length, chomp, hinside, hread, hstop, hending, rfl⟩ := inside_of_readTag h
  obtain ⟨⟨rest, hstopRest⟩, rfl⟩ := (ending?_eq_some_iff hstock hline).mp hending
  obtain ⟨after, hafter⟩ := exists_tailText env chomp (tagEnd == .block) rest
  have hlast : chomp.width + 2 = (chomp.sign ++ tagEnd.closing).length := by
    simp [TagEnd.length_closing hline, Chomp.width]
  obtain ⟨hend, hendRest⟩ := reaches_push_of_rest tagEnd.kind hstopRest.symm
  rw [← hlast] at hend hendRest
  have htail : tailText env chomp (tagEnd == .block)
      (tailText env chomp (tagEnd == .block) rest ++ after) =
        tailText env chomp (tagEnd == .block) rest := by rw [← hafter]
  obtain ⟨htailReach, htailRest⟩ := reaches_readTail (hendRest.trans hafter) htail
  rw [htailRest]
  have hbehind : behind = textOfCuts inside ++ stop.rest := by
    rw [← hbeginRest, hstop.rest_eq]
  rw [hafter] at hstopRest
  rw [← hstopRest] at hinside hread hbehind
  refine ⟨sign, chomp, inside, _, ?_, hinside, htail, allRead_tagCuts ?_, ?_⟩
  · rw [← hbehind]
    exact hsign
  · rw [hbegin.previous_eq] at hread
    simpa using hread
  · exact hbegin.trans (hstop.trans (hend.trans htailReach))

theorem sign_suffix_of_ofChar? (text : Text) :
    ∃ body, text = body ++ (Chomp.ofChar? text.getLast?).sign := by
  unfold Chomp.ofChar?
  split
  · rename_i hlast
    exact ⟨text.dropLast, (dropLast_append_getLast? '-' hlast).symm⟩
  · rename_i hlast
    exact ⟨text.dropLast, (dropLast_append_getLast? '+' hlast).symm⟩
  · exact ⟨text, by simp [Chomp.sign]⟩

theorem isWord_of_mem_commentCuts {body : Text} :
    ∀ cut ∈ commentCuts sign body chomp tail, cut.1.isWord = false := by
  intro cut hcut
  simp only [commentCuts, mem_cons, mem_append, mem_someCut] at hcut
  rcases hcut with rfl | ⟨-, rfl⟩ | rfl | ⟨-, rfl⟩ <;> rfl

theorem exists_of_readComment {env : Environment} (hstock : env.IsStock) {scan result : Scan}
    {more : Text} (hrest : scan.rest = ['{', '#'] ++ more) (h : scan.readComment env = .ok result) :
    ∃ cuts, Opened env .comment cuts result.rest ∧
      AllRead TokenKind.isWord scan.previous cuts result.rest ∧ Reaches scan cuts result := by
  obtain ⟨behind, hmore, hsign, -⟩ := Chomp.exists_of_atStart more
  simp only [readComment, hstock.commentStart, hstock.commentEnd, hrest, length_cons,
    length_nil, Nat.zero_add, Nat.reduceAdd] at h
  rw [show (['{', '#'] ++ more).drop 2 = more from rfl] at h
  generalize Chomp.atStart more = sign at hmore hsign h
  subst hmore
  rw [← append_assoc] at hrest
  have hlength : 2 + sign.width = (['{', '#'] ++ sign.sign).length := by
    simp [Chomp.width]
    omega
  obtain ⟨hbegin, hbeginRest⟩ := reaches_push_of_rest .commentBegin hrest
  rw [hlength, hbeginRest] at h
  split at h
  · simp [fail] at h
  · rename_i start hstart
    obtain ⟨text, rest, rfl, rfl⟩ := exists_of_position?_commentEnd hstart
    have hnone : position? ['#', '}'] text = none := (position?_commentEnd_iff rest).mp hstart
    rw [take_left] at h
    obtain ⟨body, hbody⟩ := sign_suffix_of_ofChar? text
    obtain ⟨chomp, hchomp⟩ : ∃ chomp, chomp = Chomp.ofChar? text.getLast? := ⟨_, rfl⟩
    rw [← hchomp] at hbody h
    subst hbody
    obtain ⟨after, hafter⟩ := exists_tailText env chomp true rest
    have htail : tailText env chomp true (tailText env chomp true rest ++ after) =
        tailText env chomp true rest := by rw [← hafter]
    have hbodyRest : (scan.push .commentBegin (['{', '#'] ++ sign.sign).length).rest =
        body ++ (chomp.sign ++ ['#', '}'] ++ rest) := by
      rw [hbeginRest]
      simp
    obtain ⟨hcomment, hendRest⟩ := reaches_pushSome_of_rest .comment hbodyRest
    obtain ⟨hend, htailRest⟩ := reaches_push_of_rest .commentEnd hendRest
    obtain ⟨hlast, hlastRest⟩ := reaches_readTail (htailRest.trans hafter) htail
    have hbodyLength : (body ++ chomp.sign).length - chomp.width = body.length := by
      simp [Chomp.width]
    have hendLength : chomp.width + 2 = (chomp.sign ++ ['#', '}']).length := by simp [Chomp.width]
    rw [hbodyLength, hendLength] at h
    obtain rfl := Except.ok.inj h
    rw [hlastRest]
    refine ⟨commentCuts sign body chomp _, .comment ?_ hnone hchomp.symm htail,
      allRead_of_none (isWord_of_mem_commentCuts) _ _,
      hbegin.trans (hcomment.trans (hend.trans hlast))⟩
    intro hempty
    have hhead : (body ++ (chomp.sign ++ ['#', '}'])).head? =
        (body ++ chomp.sign ++ '#' :: '}' :: rest).head? := by
      simp [head?_append]
    rw [Chomp.atStart, hhead]
    exact hsign hempty

theorem isWord_of_mem_leadCuts {kept : Nat} {cut : Cut} (h : cut ∈ leadCuts kept data) :
    cut.1.isWord = false := by
  simp only [leadCuts, mem_append, mem_someCut] at h
  rcases h with ⟨-, rfl⟩ | ⟨-, rfl⟩ <;> rfl

theorem isWord_of_mem_rawCuts {opening closing : Text} {cut : Cut}
    (h : cut ∈ rawCuts env opening gap data closing tail) : cut.1.isWord = false := by
  simp only [rawCuts, mem_cons, mem_append, mem_someCut] at h
  rcases h with rfl | ⟨-, rfl⟩ | hlead | rfl | ⟨-, rfl⟩
  · rfl
  · rfl
  · exact isWord_of_mem_leadCuts hlead
  · rfl
  · rfl

theorem exists_of_readRaw (hstock : env.IsStock) {opening : Text}
    (hrest : scan.rest = opening ++ more) (hopening : WordTag "raw" opening first)
    (h : ((scan.push .rawBegin opening.length).readTail env first true).readRaw env = .ok result) :
    ∃ cuts, Opened env .block cuts result.rest ∧
      AllRead TokenKind.isWord scan.previous cuts result.rest ∧ Reaches scan cuts result := by
  obtain ⟨inner, hinner⟩ := exists_tailText env first true more
  have hgap : tailText env first true (tailText env first true more ++ inner) =
      tailText env first true more := by rw [← hinner]
  obtain ⟨hbegin, hbeginRest⟩ := reaches_push_of_rest .rawBegin hrest
  obtain ⟨hgapReach, hgapRest⟩ := reaches_readTail (hbeginRest.trans hinner) hgap
  have hrun := h
  rw [readRaw, hgapRest, rawEnd?_eq_endRaw? hstock] at h
  cases hend : endRaw? env inner with
  | none => simp [hend, fail] at h
  | some found =>
      obtain ⟨start, length, last⟩ := found
      obtain ⟨data, closing, rest, rfl, rfl, rfl, hclosing⟩ := endRaw?_bounds hstock hend
      obtain ⟨after, hafter⟩ := exists_tailText env last true rest
      have htail : tailText env last true (tailText env last true rest ++ after) =
          tailText env last true rest := by rw [← hafter]
      rw [hafter] at hend hgap hinner
      have hrestAll : scan.rest = textOfCuts (rawCuts env opening (tailText env first true more)
          data closing (tailText env last true rest)) ++ after := by
        rw [textOfCuts_rawCuts, hrest]
        exact congrArg (opening ++ ·) hinner
      obtain ⟨stop, hreach, hstop, hstopRun⟩ :=
        readRaw_of_parts hstock hopening hgap hclosing hend htail hrestAll
      obtain rfl := Except.ok.inj (hstopRun.symm.trans hrun)
      rw [hstop]
      exact ⟨_, .raw hopening hgap hclosing hend htail,
        allRead_of_none (fun _ => isWord_of_mem_rawCuts) _ _, hreach⟩

theorem opened_of_readTagFrom (hstock : env.IsStock) (hline : tagEnd ≠ .line) {marker : Marker}
    (hlength : marker.length = 2) (hrest : scan.rest = tagEnd.opening ++ more)
    (hraw : tagEnd = .block → wordTag? env "raw" scan.rest = none)
    (h : scan.readTagFrom env tagEnd tagEnd.beginKind (scan.signedLength marker) = .ok result) :
    ∃ cuts, Opened env tagEnd.marker cuts result.rest ∧
      AllRead TokenKind.isWord scan.previous cuts result.rest ∧ Reaches scan cuts result := by
  have hsigned : scan.signedLength marker = 2 + (Chomp.atStart more).width := by
    rw [signedLength, hrest, hlength, ← TagEnd.length_opening hline, drop_left]
  rw [hsigned] at h
  obtain ⟨sign, chomp, inside, tail, hsign, hinside, htail, hread, hreach⟩ :=
    exists_of_readTagFrom hstock hline hrest h
  refine ⟨_, .tag hline hsign (fun hblock => ?_) hinside htail, hread, hreach⟩
  rw [← textOfCuts_tagCuts, ← hreach.rest_eq]
  exact hraw hblock

theorem opened_of_readMarked {env : Environment} (hstock : env.IsStock) {marker : Marker}
    {scan result : Scan} {c : Char} {more : Text} (hrest : scan.rest = '{' :: c :: more)
    (hc : Marker.kindOf? c = some marker.kind) (hlength : marker.length = 2)
    (h : scan.readMarked env marker = .ok result) :
    ∃ cuts, Opened env marker.kind cuts result.rest ∧
      AllRead TokenKind.isWord scan.previous cuts result.rest ∧ Reaches scan cuts result := by
  unfold Marker.kindOf? at hc
  split at hc
  · have hkind := Option.some.inj hc
    rw [readMarked, ← hkind] at h
    rw [← hkind]
    cases hword : wordTag? env "raw" scan.rest with
    | none =>
        simp only [hword] at h
        exact opened_of_readTagFrom hstock (show TagEnd.block ≠ .line by decide) hlength hrest
          (fun _ => hword) h
    | some found =>
        obtain ⟨length, first⟩ := found
        simp only [hword] at h
        obtain ⟨opening, hopening, ⟨behind, hbehind⟩, rfl⟩ := (wordTag?_raw_iff hstock).mp hword
        exact exists_of_readRaw hstock hbehind.symm hopening h
  · have hkind := Option.some.inj hc
    rw [readMarked, ← hkind] at h
    rw [← hkind]
    exact opened_of_readTagFrom hstock (show TagEnd.variable ≠ .line by decide) hlength hrest
      (by simp) h
  · have hkind := Option.some.inj hc
    rw [readMarked, ← hkind] at h
    rw [← hkind]
    exact exists_of_readComment hstock hrest h
  · simp at hc

/-- The pieces of a template have an outline, and every token among them is found at its place. -/
theorem shaped_of_readAll (hstock : env.IsStock) {bound : Nat}
    (h : readAll env bound scan = .ok result) :
    ∃ cuts, Shaped env scan.previous cuts ∧ AllRead TokenKind.isWord scan.previous cuts [] ∧
      Reaches scan cuts result ∧ result.rest = [] := by
  induction bound generalizing scan with
  | zero =>
      simp only [readAll] at h
      split at h
      · rename_i hrest
        obtain rfl := Except.ok.inj h
        exact ⟨[], .nil, trivial, Reaches.refl scan, hrest⟩
      · simp [fail] at h
  | succ bound ih =>
      rw [readAll] at h
      split at h
      · rename_i hrest
        obtain rfl := Except.ok.inj h
        exact ⟨[], .nil, trivial, Reaches.refl scan, hrest⟩
      · rename_i hsome
        rw [Marker.next?_eq_first? hstock] at h
        cases hfirst : Marker.first? scan.rest with
        | none =>
            simp only [hfirst, Option.map_none, Except.ok.injEq] at h
            subst h
            obtain ⟨hreach, hstop⟩ := reaches_push_of_rest .data scan.rest.append_nil.symm
            exact ⟨_, .data hsome hfirst, ⟨by simp [TokenKind.isWord], trivial⟩, hreach, hstop⟩
        | some found =>
            obtain ⟨start, kind⟩ := found
            obtain ⟨data, c, more, hrest, rfl, hdata, hc⟩ := Marker.exists_of_first?_eq_some hfirst
            simp only [hfirst, Option.map_some] at h
            let marker : Marker := ⟨data.length, kind, 2⟩
            obtain ⟨hlead, hleadRest⟩ := reaches_readData env hrest
              (show marker.start = data.length from rfl)
            split at h
            · simp at h
            · rename_i middle hmiddle
              obtain ⟨cuts, hopened, hread, hcuts⟩ :=
                opened_of_readMarked hstock hleadRest hc rfl hmiddle
              obtain ⟨rest, hshaped, hreadRest, hreachRest, hresult⟩ := ih h
              have hmiddleRest : middle.rest = textOfCuts rest := by
                rw [hreachRest.rest_eq, hresult, append_nil]
              have hchomp : marker.chomp scan.rest = .atStart ((textOfCuts cuts).drop 2) := by
                rw [hrest, ← hleadRest, hcuts.rest_eq]
                exact hopened.chomp_eq data
              have hprevious := hlead.previous_eq
              rw [textOfCuts_leadCuts] at hprevious
              have hpreviousMiddle := hcuts.previous_eq
              rw [hprevious, ← lastChar_append] at hpreviousMiddle
              rw [hchomp] at hlead
              rw [hmiddleRest] at hopened hread
              rw [hprevious] at hread
              rw [hpreviousMiddle] at hshaped hreadRest
              refine ⟨_, .opened hdata hopened hshaped, ?_,
                hlead.trans (hcuts.trans hreachRest), hresult⟩
              rw [allRead_append, allRead_append, textOfCuts_leadCuts, ← lastChar_append]
              exact ⟨allRead_of_none (fun _ => isWord_of_mem_leadCuts) _ _, by simpa using hread,
                hreadRest⟩

/-- The pieces that a scan gives, for the stock delimiters: those with an outline in which every
token is found at its place. -/
theorem scan_eq_ok_iff (hstock : env.IsStock) {source : Text} :
    (∃ pieces, JinjaLayout.scan env source = .ok pieces ∧ pieces.map Piece.cut = cuts) ↔
      textOfCuts cuts = scannedText env source ∧ Shaped env none cuts ∧
        AllRead TokenKind.isWord none cuts [] := by
  constructor
  · rintro ⟨pieces, hscan, rfl⟩
    rw [JinjaLayout.scan] at hscan
    cases hrun : readAll env ((scannedText env source).length + 1)
        { rest := scannedText env source } with
    | error fault => simp [hrun, Except.map] at hscan
    | ok result =>
        obtain ⟨cuts, hshaped, hread, hreach, hresult⟩ := shaped_of_readAll hstock hrun
        obtain rfl : result.pieces.reverse = pieces := by simpa [hrun, Except.map] using hscan
        have hcuts : result.pieces.reverse.map Piece.cut = cuts := hreach.cuts_eq
        have hrest := hreach.rest_eq
        rw [hresult, append_nil] at hrest
        rw [hcuts]
        exact ⟨hrest.symm, hshaped, hread⟩
  · rintro ⟨htext, hshaped, hread⟩
    obtain ⟨stop, hreach, -, hrun⟩ := readAll_of_shaped hstock hshaped
      ((scannedText env source).length + 1) { rest := scannedText env source } htext.symm rfl hread
      (by rw [htext]; exact Nat.lt_succ_self _)
    refine ⟨stop.pieces.reverse, ?_, hreach.cuts_eq⟩
    rw [JinjaLayout.scan]
    simp [hrun, Except.map]

/-! ### One outline for a text and its tokens -/

/-- The pieces that are neither whitespace nor the inside of a comment. -/
def contentOf (cuts : List Cut) : List Cut :=
  cuts.filter fun cut => cut.1.isContent

@[simp]
theorem contentOf_append (first second : List Cut) :
    contentOf (first ++ second) = contentOf first ++ contentOf second := by
  simp [contentOf]

theorem contentOf_cons_of_isContent {kind : TokenKind} (h : kind.isContent) (text : Text)
    (cuts : List Cut) : contentOf ((kind, text) :: cuts) = (kind, text) :: contentOf cuts := by
  simp [contentOf, h]

theorem Inside.contentOf_eq {due : Text} (h : Inside env tagEnd due cuts after) :
    contentOf cuts = wordsOf cuts := by
  induction h with
  | stop => rfl
  | blank _ _ _ _ ih => simpa [contentOf, wordsOf, TokenKind.isContent, TokenKind.isWord] using ih
  | @token due due' cut cuts after hword _ _ _ _ _ ih =>
      have hcontent : cut.1.isContent := by
        revert hword
        cases cut.1 <;> simp [TokenKind.isWord, TokenKind.isContent]
      rw [← Prod.mk.eta (p := cut), contentOf_cons_of_isContent hcontent, wordsOf_word hword, ih]

theorem tail_unique {trims : Bool} (h : tailText env chomp trims (tail ++ after) = tail)
    (h' : tailText env chomp trims (tail' ++ after') = tail')
    (htext : tail ++ after = tail' ++ after') : tail = tail' ∧ after = after' := by
  have hsame : tail = tail' := by rw [← h, htext, h']
  subst hsame
  exact ⟨rfl, append_cancel_left htext⟩

theorem sign_unique {sign' : Chomp} {text text' : Text}
    (h : sign = .none → Chomp.atStart text = .none)
    (h' : sign' = .none → Chomp.atStart text' = .none)
    (htext : sign.sign ++ text = sign'.sign ++ text') : sign = sign' ∧ text = text' := by
  have hsame : sign = sign' := by
    rw [← Chomp.atStart_sign_append h, htext, Chomp.atStart_sign_append h']
  subst hsame
  exact ⟨rfl, append_cancel_left htext⟩

theorem TagEnd.marker_injective {tagEnd' : TagEnd} (h : tagEnd.marker = tagEnd'.marker) :
    tagEnd = tagEnd' := by
  cases tagEnd <;> cases tagEnd' <;> simp_all [TagEnd.marker]

theorem tagCuts_unique (hstock : env.IsStock) (hline : tagEnd ≠ .line) {sign' chomp' : Chomp}
    {inside' more more' : List Cut} (hsign : sign = .none → Chomp.atStart (textOfCuts inside ++
      (chomp.sign ++ tagEnd.closing ++ (tail ++ after))) = .none)
    (hsign' : sign' = .none → Chomp.atStart (textOfCuts inside' ++
      (chomp'.sign ++ tagEnd.closing ++ (tail' ++ after'))) = .none)
    (hinside : Inside env tagEnd [] inside (chomp.sign ++ tagEnd.closing ++ (tail ++ after)))
    (hinside' : Inside env tagEnd [] inside' (chomp'.sign ++ tagEnd.closing ++ (tail' ++ after')))
    (htail : tailText env chomp (tagEnd == .block) (tail ++ after) = tail)
    (htail' : tailText env chomp' (tagEnd == .block) (tail' ++ after') = tail')
    (htext : textOfCuts (tagCuts tagEnd sign inside chomp tail) ++ after =
      textOfCuts (tagCuts tagEnd sign' inside' chomp' tail') ++ after')
    (hcontent : contentOf (tagCuts tagEnd sign inside chomp tail) ++ more =
      contentOf (tagCuts tagEnd sign' inside' chomp' tail') ++ more') :
    tagCuts tagEnd sign inside chomp tail = tagCuts tagEnd sign' inside' chomp' tail' ∧
      after = after' := by
  rw [textOfCuts_tagCuts, textOfCuts_tagCuts, append_assoc tagEnd.opening,
    append_assoc tagEnd.opening] at htext
  obtain ⟨rfl, hrest⟩ := sign_unique hsign hsign' (append_cancel_left htext)
  have hbegin : tagEnd.beginKind.isContent := by cases tagEnd <;> rfl
  have hwords : wordsOf inside ++ (contentOf ((tagEnd.kind, chomp.sign ++ tagEnd.closing) ::
        someCut .whitespace tail) ++ more) =
      wordsOf inside' ++ (contentOf ((tagEnd.kind, chomp'.sign ++ tagEnd.closing) ::
        someCut .whitespace tail') ++ more') := by
    simp only [tagCuts, contentOf_cons_of_isContent hbegin, cons_append, contentOf_append,
      hinside.contentOf_eq, hinside'.contentOf_eq, append_assoc] at hcontent
    exact (cons.inj hcontent).2
  obtain ⟨rfl, hend⟩ := hinside.unique hinside' hrest hwords
  have hclosing : ∀ (chomp : Chomp) (rest : Text),
      ending? env tagEnd (chomp.sign ++ tagEnd.closing ++ rest) = some (chomp.width + 2, chomp) :=
    fun chomp rest => (ending?_eq_some_iff hstock hline).mpr ⟨prefix_append _ _, rfl⟩
  obtain rfl : chomp = chomp' := by
    have hsame := hclosing chomp (tail ++ after)
    rw [hend, hclosing] at hsame
    simp_all
  obtain ⟨rfl, rfl⟩ := tail_unique htail htail' (append_cancel_left hend)
  exact ⟨rfl, rfl⟩

theorem commentCuts_unique {env : Environment} {sign sign' chomp chomp' : Chomp}
    {body body' tail tail' after after' : Text}
    (hsign : sign = .none → Chomp.atStart (body ++ (chomp.sign ++ ['#', '}'])) = .none)
    (hsign' : sign' = .none → Chomp.atStart (body' ++ (chomp'.sign ++ ['#', '}'])) = .none)
    (hbody : position? ['#', '}'] (body ++ chomp.sign) = none)
    (hbody' : position? ['#', '}'] (body' ++ chomp'.sign) = none)
    (hchomp : Chomp.ofChar? (body ++ chomp.sign).getLast? = chomp)
    (hchomp' : Chomp.ofChar? (body' ++ chomp'.sign).getLast? = chomp')
    (htail : tailText env chomp true (tail ++ after) = tail)
    (htail' : tailText env chomp' true (tail' ++ after') = tail')
    (htext : textOfCuts (commentCuts sign body chomp tail) ++ after =
      textOfCuts (commentCuts sign' body' chomp' tail') ++ after') :
    commentCuts sign body chomp tail = commentCuts sign' body' chomp' tail' ∧ after = after' := by
  have hatStart : ∀ (body rest : Text) (chomp : Chomp),
      Chomp.atStart (body ++ chomp.sign ++ '#' :: '}' :: rest) =
        Chomp.atStart (body ++ (chomp.sign ++ ['#', '}'])) := by
    intro body rest chomp
    simp [Chomp.atStart, head?_append]
  have hrest : sign.sign ++ (body ++ chomp.sign ++ '#' :: '}' :: (tail ++ after)) =
      sign'.sign ++ (body' ++ chomp'.sign ++ '#' :: '}' :: (tail' ++ after')) := by
    simpa [commentCuts] using htext
  rw [← hatStart body (tail ++ after)] at hsign
  rw [← hatStart body' (tail' ++ after')] at hsign'
  obtain ⟨rfl, hbehind⟩ := sign_unique hsign hsign' hrest
  have hlength : (body ++ chomp.sign).length = (body' ++ chomp'.sign).length := by
    have hfound := (position?_commentEnd_iff (tail ++ after)).mpr hbody
    rw [hbehind, (position?_commentEnd_iff (tail' ++ after')).mpr hbody'] at hfound
    exact (Option.some.inj hfound).symm
  obtain ⟨hwhole, hend⟩ := append_inj hbehind hlength
  obtain rfl : chomp = chomp' := by rw [← hchomp, hwhole, hchomp']
  obtain rfl := append_cancel_right hwhole
  obtain ⟨rfl, rfl⟩ := tail_unique htail htail' (by simpa using hend)
  exact ⟨rfl, rfl⟩

theorem rawCuts_unique (hstock : env.IsStock) {opening opening' gap' data' closing closing' : Text}
    {first' last last' : Chomp} (hopening : WordTag "raw" opening first)
    (hopening' : WordTag "raw" opening' first')
    (hgap : tailText env first true (gap ++ (data ++ (closing ++ (tail ++ after)))) = gap)
    (hgap' : tailText env first' true (gap' ++ (data' ++ (closing' ++ (tail' ++ after')))) = gap')
    (hdata : endRaw? env (data ++ (closing ++ (tail ++ after))) =
      some (data.length, closing.length, last))
    (hdata' : endRaw? env (data' ++ (closing' ++ (tail' ++ after'))) =
      some (data'.length, closing'.length, last'))
    (htail : tailText env last true (tail ++ after) = tail)
    (htail' : tailText env last' true (tail' ++ after') = tail')
    (htext : textOfCuts (rawCuts env opening gap data closing tail) ++ after =
      textOfCuts (rawCuts env opening' gap' data' closing' tail') ++ after') :
    rawCuts env opening gap data closing tail = rawCuts env opening' gap' data' closing' tail' ∧
      after = after' := by
  rw [textOfCuts_rawCuts, textOfCuts_rawCuts] at htext
  obtain ⟨hlength, rfl⟩ : opening.length = opening'.length ∧ first = first' := by
    have hword := (wordTag?_raw_iff hstock).mpr ⟨_, hopening, prefix_append _
      (gap ++ (data ++ (closing ++ (tail ++ after)))), rfl⟩
    rw [htext, (wordTag?_raw_iff hstock).mpr ⟨_, hopening', prefix_append _ _, rfl⟩] at hword
    simp_all
  obtain ⟨rfl, hrest⟩ := append_inj htext hlength
  obtain ⟨rfl, hinner⟩ := tail_unique hgap hgap' hrest
  rw [hinner, hdata'] at hdata
  obtain ⟨hdataLength, hclosingLength, rfl⟩ :
      data'.length = data.length ∧ closing'.length = closing.length ∧ last' = last := by
    simpa using hdata
  obtain ⟨rfl, hclosing⟩ := append_inj hinner hdataLength.symm
  obtain ⟨rfl, hend⟩ := append_inj hclosing hclosingLength.symm
  obtain ⟨rfl, rfl⟩ := tail_unique htail htail' hend
  exact ⟨rfl, rfl⟩

theorem Opened.unique (hstock : env.IsStock) {kind' : MarkerKind} {cuts' more more' : List Cut}
    (h : Opened env kind cuts after) (h' : Opened env kind' cuts' after') (hkind : kind = kind')
    (htext : textOfCuts cuts ++ after = textOfCuts cuts' ++ after')
    (hcontent : contentOf cuts ++ more = contentOf cuts' ++ more') :
    cuts = cuts' ∧ after = after' := by
  -- a tag that starts a raw block is no tag of its own
  have hnotRaw : ∀ {tagEnd : TagEnd} {text opening rest : Text} {first : Chomp},
      tagEnd.marker = .block → (tagEnd = .block → wordTag? env "raw" text = none) →
      WordTag "raw" opening first → text ≠ opening ++ rest := by
    rintro tagEnd _ opening rest first hmarker hraw hopening rfl
    have hword := (wordTag?_raw_iff hstock).mpr ⟨_, hopening, prefix_append _ rest, rfl⟩
    rw [hraw (TagEnd.marker_injective hmarker)] at hword
    simp at hword
  cases h with
  | @tag tagEnd _ _ _ _ _ hline hsign hraw hinside htail =>
      cases h' with
      | @tag tagEnd' _ _ _ _ _ hline' hsign' _ hinside' htail' =>
          obtain rfl := TagEnd.marker_injective hkind
          exact tagCuts_unique hstock hline hsign hsign' hinside hinside' htail htail' htext hcontent
      | comment => cases tagEnd <;> simp [TagEnd.marker] at hkind
      | raw hopening' =>
          rw [textOfCuts_tagCuts, textOfCuts_rawCuts] at htext
          exact absurd htext (hnotRaw hkind hraw hopening')
  | comment hsign hbody hchomp htail =>
      cases h' with
      | @tag tagEnd' => cases tagEnd' <;> simp [TagEnd.marker] at hkind
      | comment hsign' hbody' hchomp' htail' =>
          exact commentCuts_unique hsign hsign' hbody hbody' hchomp hchomp' htail htail' htext
      | raw => simp at hkind
  | raw hopening hgap _ hdata htail =>
      cases h' with
      | @tag tagEnd' _ _ _ _ _ hline' hsign' hraw' hinside' htail' =>
          rw [textOfCuts_tagCuts, textOfCuts_rawCuts] at htext
          exact absurd htext.symm (hnotRaw hkind.symm hraw' hopening)
      | comment => simp at hkind
      | raw hopening' hgap' _ hdata' htail' =>
          exact rawCuts_unique hstock hopening hopening' hgap hgap' hdata hdata' htail htail' htext

theorem Shaped.unique (hstock : env.IsStock) {cuts' : List Cut} (h : Shaped env previous cuts)
    (h' : Shaped env previous cuts') (htext : textOfCuts cuts = textOfCuts cuts')
    (hcontent : contentOf cuts = contentOf cuts') :
    cuts = cuts' := by
  induction h generalizing cuts' with
  | nil =>
      cases h' with
      | nil => rfl
      | data hsome' => simp_all
      | opened _ hopened' =>
          obtain ⟨_, _, _, htext', -⟩ := hopened'.exists_cons
          simp [htext'] at htext
  | data hsome hdata =>
      cases h' with
      | nil => simp_all
      | data hsome' hdata' => simp_all
      | @opened _ data' kind' opened' more' hdata' hopened' _ =>
          have hfirst := first?_opened hopened' hdata'
          simp only [textOfCuts_cons, textOfCuts_nil, textOfCuts_append, textOfCuts_leadCuts,
            append_nil] at htext
          rw [← htext, hdata] at hfirst
          simp at hfirst
  | @opened previous data kind opened more hdata hopened hmore ih =>
      have hfirst := first?_opened hopened hdata
      simp only [textOfCuts_append, textOfCuts_leadCuts] at htext
      cases h' with
      | nil =>
          obtain ⟨_, _, _, htext', -⟩ := hopened.exists_cons
          simp [htext'] at htext
      | data hsome' hdata' =>
          rw [htext, textOfCuts_cons, textOfCuts_nil, append_nil, hdata'] at hfirst
          simp at hfirst
      | @opened _ data' kind' opened' more' hdata' hopened' hmore' =>
          simp only [textOfCuts_append, textOfCuts_leadCuts] at htext
          rw [htext, first?_opened hopened' hdata'] at hfirst
          obtain ⟨hlength, rfl⟩ : data'.length = data.length ∧ kind' = kind := by
            simpa using hfirst
          obtain ⟨rfl, hrest⟩ := append_inj htext hlength.symm
          have hchomp : Chomp.atStart ((textOfCuts opened).drop 2) =
              Chomp.atStart ((textOfCuts opened').drop 2) := by
            rw [← hopened.chomp_eq data, hrest, hopened'.chomp_eq data]
          rw [hchomp, contentOf_append, contentOf_append, contentOf_append,
            contentOf_append] at hcontent
          have hboth := append_cancel_left hcontent
          obtain ⟨rfl, hmoreText⟩ := hopened.unique hstock hopened' rfl hrest hboth
          obtain rfl := ih hmore' hmoreText (append_cancel_left hboth)
          rfl

end JinjaLayout.Scan
