import CuedProse.Text
import CuedProse.Glyph.Extent
import CuedProse.Glyph.Emoji

/-!
# Columns

The number of columns a text takes on a character grid. It is the sum of the extents of its
characters, but for a few sequences that are drawn as one: a carriage return before a line feed,
emoji made of several characters, and ligatures of some scripts. A text is measured from its end, so
that the columns of a character depend on what follows it: its `Trail`.
-/
namespace CuedProse.Glyph

inductive Selector where
  /-- Show as text. -/
  | text
  /-- Show as emoji. -/
  | emoji
  /-- Draw a quotation mark in one column. -/
  | narrow
  /-- Draw a quotation mark in two columns. -/
  | full
  deriving DecidableEq, Repr

/-- The last part of a ligature, read so far from its end. -/
inductive Ligature where
  /-- An alef, which merges with a lam before it. -/
  | alef
  /-- A long solidus over an alef. -/
  | struckAlef
  /-- A long solidus, which widens a comparison sign below it in East Asian text. -/
  | solidus
  | lamed | buginese | buginesePair | tifinagh | tifinaghPair | lisu | turkic
  /-- A Khmer letter that a sign before it turns into a subscript. -/
  | khmer
  | kiratE | kiratAi
  deriving DecidableEq, Repr

/-- What follows the character to be measured. -/
inductive Follow where
  | plain
  | lineFeed
  | skinTone
  /-- Regional indicators, one or more. -/
  | regional (many : Bool)
  /-- Something that is drawn as an emoji. -/
  | emoji
  /-- A joiner, then an emoji. -/
  | joined
  /-- A keycap mark before a joined emoji. -/
  | joinedKeycap
  /-- Regional indicators before a joined emoji. -/
  | joinedRegional (count : Nat)
  /-- The end of a tag sequence before a joined emoji: so many tag letters, so many tag digits. -/
  | joinedTag (letters digits : Nat)
  /-- The rest of a ligature, perhaps with a joiner in front. -/
  | ligature (l : Ligature) (joiner : Bool)
  deriving DecidableEq, Repr

/-- What follows, and a variation selector before it. -/
structure Trail where
  follow : Follow := .plain
  selector : Option Selector := none
  deriving DecidableEq, Repr

namespace Trail

/-- Whether the rest of a ligature follows, which a variation selector does not end. -/
def isLigature (t : Trail) : Bool :=
  match t.follow with
  | .ligature _ _ => true
  | _ => false

/-- A selector in front. Only a ligature stays known behind it, and a joined emoji behind an emoji
selector. -/
def select (t : Trail) (s : Selector) : Trail :=
  let kept := t.isLigature || (s = .emoji && (t.follow = .joined || t.follow = .joinedKeycap))
  ⟨if kept then t.follow else .plain, some s⟩

/-- The trail when its selector says nothing about the character before it. -/
def ignoreSelector (t : Trail) : Trail :=
  match t.selector with
  | none => t
  | some _ => ⟨if t.isLigature then t.follow else .plain, none⟩

end Trail

def inRange (lo hi : Nat) (c : Char) : Bool := decide (lo ≤ c.toNat) && decide (c.toNat ≤ hi)

def isRegional (c : Char) : Bool := inRange 0x1F1E6 0x1F1FF c

def isTifinagh (c : Char) : Bool := inRange 0x2D31 0x2D65 c || inRange 0x2D6F 0x2D6F c

/-- A lam, of any of its letter forms. -/
def isLam (c : Char) : Bool :=
  [0x644, 0x76A, 0x8A6, 0x8C7].contains c.toNat || inRange 0x6B5 0x6B8 c

/-- The letters whose joining group is alef. -/
def alefs : RangeTable := .mk [
  (0x622, 0x623), (0x625, 0x625), (0x627, 0x627), (0x671, 0x673), (0x675, 0x675),
  (0x773, 0x774), (0x870, 0x882)]

/-- The Khmer letters with a subscript form. -/
def khmerSubscripts : RangeTable := .mk [
  (0x1780, 0x1782), (0x1784, 0x1787), (0x1789, 0x178C), (0x178E, 0x1793), (0x1795, 0x1798),
  (0x179B, 0x179D), (0x17A0, 0x17A0), (0x17A2, 0x17A2), (0x17A7, 0x17A7), (0x17AB, 0x17AC),
  (0x17AF, 0x17AF)]

/-- What a character is for the one before it, on its own. -/
def Follow.ofChar (c : Char) : Follow :=
  if inRange 0x1F3FB 0x1F3FF c then .skinTone
  else if isRegional c then .regional false
  else if emojiByDefault.contains c then .emoji
  else if alefs.contains c then .ligature .alef false
  else if c.toNat = 0x338 then .ligature .solidus false
  else if c.toNat = 0x5DC then .ligature .lamed false
  else if c.toNat = 0x1A10 then .ligature .buginese false
  else if isTifinagh c then .ligature .tifinagh false
  else if inRange 0xA4FC 0xA4FD c then .ligature .lisu false
  else if c.toNat = 0x10C03 then .ligature .turkic false
  else if khmerSubscripts.contains c then .ligature .khmer false
  else if c.toNat = 0x16D67 then .ligature .kiratE false
  else if c.toNat = 0x16D68 then .ligature .kiratAi false
  else .plain

def Selector.ofChar? (c : Char) : Option Selector :=
  if c.toNat = 0xFE0F then some .emoji
  else if c.toNat = 0xFE0E then some .text
  else if c.toNat = 0xFE00 then some .narrow
  else if c.toNat = 0xFE01 then some .full
  else none

def isQuotation (c : Char) : Bool := [0x2018, 0x2019, 0x201C, 0x201D].contains c.toNat

/-- A character drawn together with the emoji after it. -/
def measureEmoji (c : Char) (f : Follow) : Option (Int × Trail) :=
  match f with
  | .skinTone => if skinToneBases.contains c then some (0, ⟨.emoji, none⟩) else joiner
  | .regional many =>
    if isRegional c then some (1, ⟨.regional true, none⟩) else if many then joiner else none
  | .emoji => joiner
  | .joined =>
    if c.toNat = 0x20E3 then some (0, ⟨.joinedKeycap, none⟩)
    else if isRegional c then some (1, ⟨.joinedRegional 1, none⟩)
    else if inRange 0x1F3FB 0x1F3FF c then some (0, ⟨.skinTone, none⟩)
    else if c.toNat = 0xE007F then some (0, ⟨.joinedTag 0 0, none⟩)
    else if emojiByDefault.contains c then some (0, ⟨.emoji, none⟩)
    else none
  | .joinedRegional n =>
    if isRegional c then
      some (if n % 2 = 1 then -1 else 3, ⟨.joinedRegional (n + 1), none⟩)
    else if 2 ≤ n then joiner else none
  | .joinedTag letters digits =>
    if inRange 0xE0061 0xE007A c && digits = 0 && letters < 6 then
      some (0, ⟨.joinedTag (letters + 1) 0, none⟩)
    else if inRange 0xE0030 0xE0039 c && letters ≤ 3 && digits < 3 then
      some (0, ⟨.joinedTag letters (digits + 1), none⟩)
    else if c.toNat = 0x1F3F4 && (digits = 3 || (digits = 0 && 3 ≤ letters)) then
      some (0, ⟨.emoji, none⟩)
    else none
  | _ => none
where
  joiner : Option (Int × Trail) :=
    if c.toNat = 0x200D then some (0, ⟨.joined, none⟩) else none

/-- A character that forms a ligature with what follows. -/
def measureLigature (eastAsian : Bool) (c : Char) (l : Ligature) (joiner : Bool) :
    Option (Int × Trail) :=
  let n := c.toNat
  let done : Option (Int × Trail) := some (0, {})
  let hidden := zeroWidth.contains c && !opaqueToArabic.contains c
  match l with
  | .alef =>
    if isLam c then done
    else if eastAsian && n = 0x338 then some (0, ⟨.ligature .struckAlef false, none⟩)
    else if hidden then some (0, ⟨.ligature .alef false, none⟩)
    else none
  | .struckAlef =>
    if isLam c then done
    else if hidden then some (0, ⟨.ligature .struckAlef false, none⟩)
    else if eastAsian && overlayTransparent.contains c then
      some (extent eastAsian c, ⟨.ligature .solidus false, none⟩)
    else none
  | .solidus =>
    if eastAsian && overlayTransparent.contains c then
      some (extent eastAsian c, ⟨.ligature .solidus false, none⟩)
    else none
  | .lamed => if joiner && n = 0x5D0 then done else none
  | .buginese =>
    if joiner && n = 0x1A17 then some (0, ⟨.ligature .buginesePair false, none⟩) else none
  | .buginesePair => if n = 0x1A15 then done else none
  | .tifinagh =>
    if n = 0x2D7F then some (1, ⟨.ligature .tifinaghPair false, none⟩)
    else if joiner && isTifinagh c then done
    else none
  | .tifinaghPair => if isTifinagh c then some (-1, {}) else none
  | .lisu => if inRange 0xA4F8 0xA4FB c then done else none
  | .turkic => if joiner && n = 0x10C32 then done else none
  | .khmer => if n = 0x17D2 then some (-1, {}) else none
  | .kiratE =>
    if n = 0x16D63 ∨ n = 0x16D69 then done
    else if n = 0x16D67 then some (0, ⟨.ligature .kiratAi false, none⟩)
    else none
  | .kiratAi => if n = 0x16D63 then done else none

/-- Marks and joiners inside a ligature leave it whole; an Arabic one has rules of its own. -/
def measureThrough (c : Char) (l : Ligature) (joiner : Bool) : Option (Int × Trail) :=
  if l = .alef then none
  else if c.toNat = 0x200D then
    some (0, ⟨.ligature (if l = .struckAlef then .solidus else l) true, none⟩)
  else if ignorableMarks.contains c then some (0, ⟨.ligature l joiner, none⟩)
  else none

/-- A character that no sequence claims. -/
def measureAlone (eastAsian : Bool) (c : Char) : Int × Trail :=
  (extent eastAsian c, ⟨Follow.ofChar c, none⟩)

/-- A character above the Latin-1 controls, with no selector behind it that it obeys. -/
def measureWide (eastAsian : Bool) (c : Char) (t : Trail) : Int × Trail :=
  match t.follow with
  | .ligature l joiner =>
    match measureThrough c l joiner with
    | some r => r
    | none => (measureLigature eastAsian c l joiner).getD (measureAlone eastAsian c)
  | f => (measureEmoji c f).getD (measureAlone eastAsian c)

/-- A character for which an emoji presentation can be selected. -/
def takesEmoji (c : Char) : Bool := emojiBySelector.contains c || textBySelector.contains c

/-- A character that a text selector makes narrow. Squared ideographs stay wide. -/
def takesText (c : Char) : Bool := textBySelector.contains c && !inRange 0x1F200 0x1F2FF c

/-- The columns that `c` adds before `t`, and the trail for the character before it. An emoji whose
parts are counted already, or a ligature, may take columns back. -/
def measure (eastAsian : Bool) (c : Char) (t : Trail) : Int × Trail :=
  if t.selector = some .emoji && takesEmoji c then
    (if t.follow = .joined || t.follow = .joinedKeycap then 0 else 2, ⟨.emoji, none⟩)
  else if eastAsian && (t.follow = .ligature .solidus false || t.follow = .ligature .solidus true ||
      t.follow = .ligature .struckAlef false) && ['<', '=', '>'].contains c then (2, {})
  else if c = '\n' then (1, ⟨.lineFeed, none⟩)
  else if c = '\r' && t.follow = .lineFeed && t.selector = none then (0, {})
  else if c.toNat ≤ 0xA0 then (1, {})
  else
    match Selector.ofChar? c with
    | some s => (0, t.select s)
    | none =>
      if t.selector = some .text && !eastAsian && takesText c then (1, {})
      else if t.selector = some .narrow && isQuotation c then (1, {})
      else if t.selector = some .full && isQuotation c then (2, {})
      else measureWide eastAsian c t.ignoreSelector

def measureAll (eastAsian : Bool) : Text → Int × Trail
  | [] => (0, {})
  | c :: rest =>
    let (sum, trail) := measureAll eastAsian rest
    let (add, trail) := measure eastAsian c trail
    (sum + add, trail)

/-- The columns that `t` takes on a character grid; beside East Asian text, ambiguous characters
take two (spec §G). -/
def columns (eastAsian : Bool) (t : Text) : Nat := (measureAll eastAsian t).1.toNat

end CuedProse.Glyph
