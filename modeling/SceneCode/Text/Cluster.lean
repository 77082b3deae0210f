import SceneCode.Text.Table.Cluster

/-! User-perceived characters: the extended grapheme clusters of Unicode, without the rule on Indic conjuncts, which
joins letters that have no case. -/
namespace SceneCode.Text

inductive ClusterClass where
  | carriageReturn
  | lineFeed
  | control
  | extend
  | joiner
  | spacing
  | prepended
  | regional
  | leading
  | vowel
  | trailing
  | syllable
  | closedSyllable
  | pictograph
  | other
deriving DecidableEq

/-- Hangul syllables stand in blocks of 28, of which the first has no trailing consonant. Vowel signs of Kirat Rai
combine as vowels of Hangul do. -/
def ClusterClass.ofChar (c : Char) : ClusterClass :=
  let code := c.toNat
  let within (first last : Nat) : Bool := first ≤ code && code ≤ last
  if code = 0x0D then .carriageReturn
  else if code = 0x0A then .lineFeed
  else if 0x20 ≤ code ∧ code < 0x7F then .other
  else if code = 0x200D then .joiner
  else if Table.control.has code then .control
  else if Table.extend.has code then .extend
  else if Table.spacingMark.has code then .spacing
  else if Table.prepended.has code then .prepended
  else if within 0x1F1E6 0x1F1FF then .regional
  else if within 0x1100 0x115F || within 0xA960 0xA97C then .leading
  else if within 0x1160 0x11A7 || within 0xD7B0 0xD7C6 || code = 0x16D63 || within 0x16D67 0x16D6A then .vowel
  else if within 0x11A8 0x11FF || within 0xD7CB 0xD7FB then .trailing
  else if within 0xAC00 0xD7A3 then
    if (code - 0xAC00) % 28 = 0 then .syllable else .closedSyllable
  else if Table.pictograph.has code then .pictograph
  else .other

/-- Whether a cluster, given backwards by its classes, takes in one more character. -/
def ClusterClass.joins (cluster : List ClusterClass) (next : ClusterClass) : Bool :=
  match cluster, next with
  | [], _ => true
  | .carriageReturn :: _, .lineFeed => true
  | .carriageReturn :: _, _ | .lineFeed :: _, _ | .control :: _, _ => false
  | _, .carriageReturn | _, .lineFeed | _, .control => false
  | .leading :: _, .leading | .leading :: _, .vowel
  | .leading :: _, .syllable | .leading :: _, .closedSyllable => true
  | .syllable :: _, .vowel | .syllable :: _, .trailing
  | .vowel :: _, .vowel | .vowel :: _, .trailing => true
  | .closedSyllable :: _, .trailing | .trailing :: _, .trailing => true
  | _, .extend | _, .joiner | _, .spacing => true
  | .prepended :: _, _ => true
  | .joiner :: before, .pictograph => (before.dropWhile (· == .extend)).head? == some .pictograph
  | .regional :: before, .regional => (before.takeWhile (· == .regional)).length % 2 == 0
  | _, _ => false

/-- Cuts a text behind the cluster read so far; `open_` and its classes are backwards. -/
def clustersFrom (open_ : List Char) (classes : List ClusterClass) : List Char → List (List Char)
  | [] => if open_.isEmpty then [] else [open_.reverse]
  | c :: rest =>
    let next := ClusterClass.ofChar c
    if ClusterClass.joins classes next then clustersFrom (c :: open_) (next :: classes) rest
    else open_.reverse :: clustersFrom [c] [next] rest

def clusters (cs : List Char) : List (List Char) :=
  clustersFrom [] [] cs

end SceneCode.Text
