import EntityStore.Text.Octets

/-!
# Tags of YAML nodes

A tag names the type of a node. The tags of the standard types have a common start. A tag that
begins with an exclamation mark is local: it names a type that only its document knows. Since a
document may write octets of a tag by their numbers, a tag is a list of octets, and need not be a
text.
-/

namespace EntityStore.Yaml

/-- A tag in full. -/
structure Tag where
  /-- Its octets. -/
  octets : List UInt8
  deriving DecidableEq

namespace Tag

/-- What the tags of the standard types start with. -/
def standardStart : List UInt8 :=
  Text.octets "tag:yaml.org,2002:"

/-- What local tags start with, an exclamation mark. Alone it is a local tag too. -/
def localStart : List UInt8 :=
  Text.octets "!"

/-- The tag of a standard type. -/
def standard (name : String) : Tag :=
  ⟨standardStart ++ Text.octets name⟩

/-- Is the tag local? -/
def isLocal (tag : Tag) : Bool :=
  localStart.isPrefixOf tag.octets

/-- Is the tag a text? -/
def isText (tag : Tag) : Bool :=
  (Text.ofOctets? tag.octets).isSome

end Tag

end EntityStore.Yaml
