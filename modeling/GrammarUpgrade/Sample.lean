import GrammarUpgrade.Dataset.Basic

/-!
# A small dataset

A dataset that shows every case of an upgrade: definitions with and without
tokens, a token inside a longer name, at-rules with and without descriptors.
-/

namespace GrammarUpgrade.Sample

/-- Value types: a shadow, a width, a size that mentions no whole token, a hue. -/
def types : Dictionary String :=
  .ofList
    [ ("shadow", "inset? && <length>\x7b2,4\x7d && <color>?"),
      ("line-width", "<length> | thin | medium | thick"),
      ("bg-size",
        "[ <length-percentage [0,∞]> | auto ]\x7b1,2\x7d | cover | contain"),
      ("hue", "<number> | <angle>") ]

/-- Properties. -/
def properties : Dictionary String :=
  .ofList
    [ ("color", "<color>"),
      ("width", "auto | <length> | <percentage>"),
      ("display", "block | inline"),
      ("border-top", "<line-width> || <line-style> || <color>") ]

/-- At-rules: one with a candidate among its descriptors and no prelude, one with
both, one without descriptors. -/
def atRules : Dictionary AtRule :=
  .ofList
    [ ("font-face",
        ⟨none, some (.ofList [("src", "<url> | <length>"),
          ("font-style", "normal | italic")]), .empty⟩),
      ("property",
        ⟨some "<custom-property-name>", some (.ofList [("syntax", "<string>"),
          ("initial-value", "<color>")]), .empty⟩),
      ("media", ⟨some "<media-query-list>", none, .empty⟩) ]

/-- The sample dataset. -/
def dataset : Dataset :=
  ⟨types, properties, atRules⟩

end GrammarUpgrade.Sample
