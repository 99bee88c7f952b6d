import Stencil.Proofs.Checked.Scan
import Stencil.Proofs.Survey.Statistics
import Stencil.Survey.Stats

/-!
# A checked survey

The survey of a source as it goes over the bytes. It is given where the markers are
(`markerSpans`) and cuts out their texts and the gaps between them; openers and closers are counted
in lists with a slot for each kind. `tally?_eq` says what it has counted and found when it comes to
the end; it follows that the verdict is that of `Validation.ofSource` (`validate?_eq`) and that the
statistics are those of `Stats.ofSource` (`stats?_eq`), for every source.
-/

namespace Stencil.Checked

open Survey

/-! ## Markers and gaps -/

/-- The spans of the markers among some pieces that start at the byte `offset`. -/
def spansFrom (offset : Nat) : List Piece → List Span
  | [] => []
  | .gap content :: rest => spansFrom (offset + byteSize content) rest
  | .marker inner :: rest =>
    ⟨offset, offset + byteSize inner + 4⟩ :: spansFrom (offset + byteSize inner + 4) rest

def markerSpans (source : String) : List Span := spansFrom 0 (Piece.ofSource source)

/-- The text between the braces of a marker. -/
def inner? (source : String) (span : Span) : Option (List Char) := do
  let stop ← less? span.stop 2
  let inner ← slice? source (span.start + 2) stop
  some inner.toList

/-- Where the first doubled opening brace between two bytes is, if there is one. -/
def openMarker? (source : String) (start stop : Nat) : Option (Option Nat) := do
  let gap ← slice? source start stop
  some ((openBraces? gap.toList).map (start + ·))

/-! ## Counting -/

/-- What has been counted of each kind, where the gap starts that comes next, and the first open
marker. -/
structure Tally where
  opened : List Nat
  closed : List Nat
  scannedTo : Nat
  unterminated : Option Nat
  deriving Repr

def slot : BlockKind → Nat
  | .conditional => 0
  | .negation => 1
  | .iteration => 2

def increment? (counts : List Nat) (kind : BlockKind) : Option (List Nat) := do
  let count ← counts[slot kind]?
  some (counts.set (slot kind) (count + 1))

namespace Tally

def start : Tally := ⟨[0, 0, 0], [0, 0, 0], 0, none⟩

def count? (t : Tally) (inner : List Char) : Option Tally :=
  match opens? inner with
  | some kind => do
    let opened ← increment? t.opened kind
    some { t with opened }
  | none =>
    match closer? inner with
    | some kind => do
      let closed ← increment? t.closed kind
      some { t with closed }
    | none => some t

/-- Looks for an open marker before the byte `stop`, unless there has been one. -/
def search? (source : String) (t : Tally) (stop : Nat) : Option Tally :=
  match t.unterminated with
  | some _ => some t
  | none => do
    let unterminated ← openMarker? source t.scannedTo stop
    some { t with unterminated }

end Tally

def tally? (source : String) (t : Tally) : List Span → Option Tally
  | [] => t.search? source source.utf8ByteSize
  | span :: rest => do
    let inner ← inner? source span
    let counted ← t.count? inner
    let searched ← counted.search? source span.start
    tally? source { searched with scannedTo := span.stop } rest

def balance? (t : Tally) (kind : BlockKind) : Option (Option ValidationError) := do
  let opened ← t.opened[slot kind]?
  let closed ← t.closed[slot kind]?
  if closed < opened then do
    let count ← less? opened closed
    some (some (.unclosed kind count))
  else if opened < closed then do
    let count ← less? closed opened
    some (some (.unexpected kind count))
  else some none

def unterminated? (source : String) : Option Nat → Option (List ValidationError)
  | none => some []
  | some offset => do
    let position ← position? source offset
    some [.unterminated position]

def validate? (source : String) : Option Validation := do
  let t ← tally? source .start (markerSpans source)
  let balances ← BlockKind.all.mapM (balance? t)
  let unterminated ← unterminated? source t.unterminated
  some ⟨(balances.reduceOption ++ unterminated).map ValidationError.message⟩

def stats? (source : String) : Option Stats := do
  let inners ← (markerSpans source).mapM (inner? source)
  let countOf kinds := inners.countP fun inner =>
    match opener? inner with
    | some (kind, _) => kinds.contains kind
    | none => false
  some {
    size := source.utf8ByteSize
    dataPaths := Text.orderedSet ((inners.filterMap mention?).filter isDataPath)
    conditionalCount := countOf [.conditional, .negation]
    loopCount := countOf [.iteration] }

/-! ## Gaps and markers in turn -/

/-- The pieces of a text: gaps and markers in turn, which make up the text, with a gap at either
end. -/
inductive Covers : List Char → List Piece → Prop
  | gap (content : List Char) : Covers content [.gap content]
  | marker (content inner : List Char) {rest : List Char} {pieces : List Piece}
      (hrest : Covers rest pieces) :
      Covers (content ++ ('{' :: '{' :: (inner ++ '}' :: '}' :: rest)))
        (.gap content :: .marker inner :: pieces)

theorem Covers.extend {cs : List Char} {pieces : List Piece} (h : Covers cs pieces) (c : Char) :
    Covers (c :: cs) (Piece.extend c pieces) := by
  cases h with
  | gap => exact .gap (c :: cs)
  | marker content inner hrest => exact .marker (c :: content) inner hrest

theorem covers_ofChars (cs : List Char) : Covers cs (Piece.ofChars cs) := by
  fun_induction Piece.ofChars cs with
  | case1 cs inner rest hmarker ih =>
      rw [eq_of_markerHere? hmarker]
      exact .marker [] inner ih
  | case2 => exact .gap []
  | case3 c rest _ ih => exact ih.extend c

/-! ## What is counted and found -/

/-- The tally with these counts. -/
def Tally.of (opened closed : BlockKind → Nat) (scannedTo : Nat) (unterminated : Option Nat) :
    Tally :=
  ⟨BlockKind.all.map opened, BlockKind.all.map closed, scannedTo, unterminated⟩

@[simp] theorem Tally.unterminated_of (opened closed : BlockKind → Nat) (scannedTo : Nat)
    (unterminated : Option Nat) :
    (Tally.of opened closed scannedTo unterminated).unterminated = unterminated := rfl

/-- How many of the texts are directives of a kind. -/
def countOf (kindOf : List Char → Option BlockKind) (inners : List (List Char))
    (kind : BlockKind) : Nat :=
  inners.countP fun inner => kindOf inner = some kind

theorem add_countOf (counts : BlockKind → Nat) (kindOf : List Char → Option BlockKind)
    (inner : List Char) (inners : List (List Char)) :
    (fun kind => counts kind + (if kindOf inner = some kind then 1 else 0) +
      countOf kindOf inners kind) =
      fun kind => counts kind + countOf kindOf (inner :: inners) kind := by
  funext kind
  rw [countOf, countOf, List.countP_cons, Nat.add_assoc, Nat.add_comm (ite _ _ _)]
  simp only [decide_eq_true_eq]

theorem increment?_eq (counts : BlockKind → Nat) (kind : BlockKind) :
    increment? (BlockKind.all.map counts) kind =
      some (BlockKind.all.map fun k => counts k + if some kind = some k then 1 else 0) := by
  cases kind <;> rfl

theorem closer?_eq_none_of_opens? {inner : List Char} {kind : BlockKind}
    (h : opens? inner = some kind) : closer? inner = none := by
  refine closer?_eq_none fun hhead => ?_
  have hopener : opener? inner = none := opener?_eq_none (by rw [hhead]; decide)
  rw [opens?, hopener] at h
  cases h

variable {source : String} {opened closed : BlockKind → Nat} {start : Nat} {found : Option Nat}

theorem count?_of (inner : List Char) :
    (Tally.of opened closed start found).count? inner =
      some (.of (fun kind => opened kind + if opens? inner = some kind then 1 else 0)
        (fun kind => closed kind + if closer? inner = some kind then 1 else 0) start found) := by
  rw [Tally.count?]
  cases hopens : opens? inner with
  | some kind =>
      simp only [Tally.of, increment?_eq, closer?_eq_none_of_opens? hopens, Option.bind_eq_bind,
        Option.bind_some]
      rfl
  | none =>
      cases hcloser : closer? inner with
      | some kind =>
          simp only [Tally.of, increment?_eq, Option.bind_eq_bind, Option.bind_some]
          rfl
      | none => rfl

theorem search?_of {gap : List Char} {stop : Nat}
    (h : Span.Reads source ⟨start, stop⟩ (String.ofList gap)) :
    (Tally.of opened closed start found).search? source stop =
      some (.of opened closed start (found.or ((openBraces? gap).map (start + ·)))) := by
  cases found with
  | some place => rfl
  | none =>
      have hslice := slice?_eq_some_iff.mpr h
      simp only [Tally.search?, Tally.of, openMarker?, hslice, Option.bind_eq_bind,
        Option.bind_some, String.toList_ofList, Option.none_or]

theorem unterminatedAt?_gap (offset : Nat) (content : List Char) (rest : List Piece) :
    unterminatedAt? offset (.gap content :: rest) = ((openBraces? content).map (offset + ·)).or
      (unterminatedAt? (offset + byteSize content) rest) := by
  rw [unterminatedAt?]
  cases openBraces? content <;> rfl

/-- What stands where a gap and a marker come next: the gap, the text of the marker, and the
rest. -/
theorem reads_marker {content inner rest : List Char}
    (h : Span.Reads source ⟨start, source.utf8ByteSize⟩
      (String.ofList (content ++ ('{' :: '{' :: (inner ++ '}' :: '}' :: rest))))) :
    Span.Reads source ⟨start, start + byteSize content⟩ (String.ofList content) ∧
      Span.Reads source ⟨start + byteSize content + 2,
        start + byteSize content + 2 + byteSize inner⟩ (String.ofList inner) ∧
      Span.Reads source ⟨start + byteSize content + byteSize inner + 4, source.utf8ByteSize⟩
        (String.ofList rest) := by
  obtain ⟨hcontent, hopened⟩ := reads_around_pair rfl h
  obtain ⟨hinner, hafter⟩ := reads_around_pair rfl hopened
  have hstop : start + byteSize content + 2 + byteSize inner + 2 =
      start + byteSize content + byteSize inner + 4 := by omega
  exact ⟨hcontent, hinner, hstop ▸ hafter⟩

theorem inner?_eq {inner : List Char}
    (h : Span.Reads source ⟨start + 2, start + 2 + byteSize inner⟩ (String.ofList inner)) :
    inner? source ⟨start, start + byteSize inner + 4⟩ = some inner := by
  have hstop : start + byteSize inner + 4 - 2 = start + 2 + byteSize inner := by omega
  simp only [inner?, less?_eq_some (show 2 ≤ start + byteSize inner + 4 by omega), hstop,
    slice?_eq_some_iff.mpr h, Option.bind_eq_bind, Option.bind_some, String.toList_ofList]

/-- The tally at the end of the source. -/
theorem tally?_eq {cs : List Char} {pieces : List Piece} (h : Covers cs pieces) :
    ∀ (opened closed : BlockKind → Nat) (start : Nat) (found : Option Nat),
      Span.Reads source ⟨start, source.utf8ByteSize⟩ (String.ofList cs) →
      ∃ scannedTo, tally? source (.of opened closed start found) (spansFrom start pieces) =
        some (.of
          (fun kind => opened kind + countOf opens? (pieces.filterMap Piece.inner?) kind)
          (fun kind => closed kind + countOf closer? (pieces.filterMap Piece.inner?) kind)
          scannedTo (found.or (unterminatedAt? start pieces))) := by
  -- A gap and the marker after it are one round; what has been counted goes into the induction.
  induction h with
  | gap content =>
      intro opened closed start found hreads
      refine ⟨start, ?_⟩
      rw [spansFrom, spansFrom, tally?, search?_of hreads, unterminatedAt?_gap, unterminatedAt?,
        Option.or_none]
      rfl
  | @marker content inner rest pieces hrest ih =>
      intro opened closed start found hreads
      obtain ⟨hgap, hinner, hafter⟩ := reads_marker hreads
      obtain ⟨scannedTo, htally⟩ := ih
        (fun kind => opened kind + if opens? inner = some kind then 1 else 0)
        (fun kind => closed kind + if closer? inner = some kind then 1 else 0) _
        (found.or ((openBraces? content).map (start + ·))) hafter
      refine ⟨scannedTo, ?_⟩
      rw [add_countOf, add_countOf] at htally
      rw [spansFrom, spansFrom, tally?, inner?_eq hinner]
      simp only [Option.bind_eq_bind, Option.bind_some, count?_of, search?_of hgap]
      refine htally.trans ?_
      rw [unterminatedAt?_gap, unterminatedAt?, Option.or_assoc]
      rfl

/-! ## Open markers -/

theorem isValid_of_openBraces? {gap : List Char} {n stop : Nat}
    (h : Span.Reads source ⟨start, stop⟩ (String.ofList gap)) (hn : openBraces? gap = some n) :
    (String.Pos.Raw.mk (start + n)).IsValid source := by
  rw [openBraces?_eq] at hn
  obtain ⟨⟨before, after⟩, hcut, rfl⟩ := Option.map_eq_some_iff.mp hn
  rw [eq_of_cutAtPair hcut, String.ofList_append] at h
  exact (h.left (by rw [utf8ByteSize_ofList])).onBoundaries.2

/-- An open marker starts between two characters. -/
theorem isValid_of_unterminatedAt? {cs : List Char} {pieces : List Piece} (h : Covers cs pieces) :
    ∀ start : Nat, Span.Reads source ⟨start, source.utf8ByteSize⟩ (String.ofList cs) →
      ∀ place ∈ unterminatedAt? start pieces, (String.Pos.Raw.mk place).IsValid source := by
  induction h with
  | gap content =>
      intro start hreads place hplace
      rw [unterminatedAt?_gap, unterminatedAt?, Option.or_none] at hplace
      obtain ⟨n, hn, rfl⟩ := Option.map_eq_some_iff.mp hplace
      exact isValid_of_openBraces? hreads hn
  | marker content inner hrest ih =>
      intro start hreads place hplace
      obtain ⟨hgap, -, hafter⟩ := reads_marker hreads
      rw [unterminatedAt?_gap, unterminatedAt?] at hplace
      rcases Option.or_eq_some_iff.mp hplace with hhere | ⟨-, hthere⟩
      · obtain ⟨n, hn, rfl⟩ := Option.map_eq_some_iff.mp hhere
        exact isValid_of_openBraces? hgap hn
      · exact ih _ hafter place hthere

/-! ## Verdict and statistics -/

theorem getElem?_slot (counts : BlockKind → Nat) (kind : BlockKind) :
    (BlockKind.all.map counts)[slot kind]? = some (counts kind) := by
  cases kind <;> rfl

theorem balance?_of (kind : BlockKind) :
    balance? (.of (openerCount · source) (closerCount · source) start found) kind =
      some (balance source kind) := by
  simp only [balance?, balance, Tally.of, getElem?_slot, Option.bind_eq_bind, Option.bind_some]
  split
  · rename_i hlt
    rw [less?_eq_some hlt.le]
    rfl
  · split
    · rename_i hlt
      rw [less?_eq_some hlt.le]
      rfl
    · rfl

theorem unterminated?_eq (h : ∀ place ∈ found, (String.Pos.Raw.mk place).IsValid source) :
    unterminated? source found = some (found.map fun place =>
      ValidationError.unterminated (Position.locate source place)).toList := by
  cases found with
  | none => rfl
  | some place =>
      rw [unterminated?, position?_of_isValid (h place rfl)]
      rfl

theorem validate?_eq (source : String) :
    validate? source = some (Validation.ofSource source) := by
  have hcovers : Covers source.toList (Piece.ofSource source) := covers_ofChars source.toList
  obtain ⟨scannedTo, htally⟩ := tally?_eq hcovers (fun _ => 0) (fun _ => 0) 0 none
    (reads_source source)
  simp only [Nat.zero_add, Option.none_or] at htally
  have hstart : tally? source .start (markerSpans source) = some (.of (openerCount · source)
      (closerCount · source) scannedTo (unterminatedAt? 0 (Piece.ofSource source))) := htally
  have hbalances : BlockKind.all.mapM (balance? (.of (openerCount · source) (closerCount · source)
      scannedTo (unterminatedAt? 0 (Piece.ofSource source)))) =
      some (BlockKind.all.map (balance source)) := by
    rw [funext balance?_of]
    exact List.mapM_pure
  have hunterminated := unterminated?_eq
    (isValid_of_unterminatedAt? hcovers 0 (reads_source source))
  simp only [validate?, hstart, hbalances, Option.bind_eq_bind, Option.bind_some,
    Tally.unterminated_of, hunterminated]
  rw [Validation.ofSource, errors, List.reduceOption, List.filterMap_map]
  rfl

theorem mapM_inner?_eq {cs : List Char} {pieces : List Piece} (h : Covers cs pieces) :
    ∀ start : Nat, Span.Reads source ⟨start, source.utf8ByteSize⟩ (String.ofList cs) →
      (spansFrom start pieces).mapM (inner? source) = some (pieces.filterMap Piece.inner?) := by
  induction h with
  | gap content => exact fun _ _ => rfl
  | marker content inner hrest ih =>
      intro start hreads
      obtain ⟨-, hinner, hafter⟩ := reads_marker hreads
      rw [spansFrom, spansFrom, List.mapM_cons, inner?_eq hinner, ih _ hafter]
      rfl

theorem stats?_eq (source : String) : stats? source = some (Stats.ofSource source) := by
  have hinners : (markerSpans source).mapM (inner? source) = some (markers source) :=
    mapM_inner?_eq (covers_ofChars source.toList) 0 (reads_source source)
  rw [stats?, hinners]
  rfl

end Stencil.Checked
