/-
  Gherkin/Keyword/Catalogue.lean
  ==============================
  **Languages and their keywords.**

  A language gives every category a list of aliases.  A catalogue finds the
  keywords of a language by its code and names the language to use when nobody
  chooses one.
-/
import Gherkin.Keyword.Category

namespace Gherkin

structure Keywords where
  /-- The name of the language, in that language. -/
  name : Text
  /-- The aliases of a category, in the order in which a line is tested for
      them. -/
  aliases : Category → List Text

namespace Keywords

def bare (name : Text) : Keywords := ⟨name, fun _ => []⟩

/-- The same keywords, but with other aliases for one category. -/
def withAliases (keywords : Keywords) (category : Category) (aliases : List Text) : Keywords :=
  { keywords with
    aliases := fun other => if other = category then aliases else keywords.aliases other }

end Keywords

structure Language where
  code : Text
  keywords : Keywords

/-- A way to find languages by their codes. -/
structure Catalogue where
  /-- The code of the language used when none is chosen. -/
  standard : Text
  lookup : Text → Option Keywords

namespace Catalogue

def find? (catalogue : Catalogue) (code : Text) : Option Language :=
  (catalogue.lookup code).map fun keywords => ⟨code, keywords⟩

/-- The catalogue of a list of languages.  Of two languages with one code the
    first is found. -/
def ofLanguages (standard : Text) (languages : List Language) : Catalogue where
  standard := standard
  lookup code := (languages.find? (·.code == code)).map (·.keywords)

end Catalogue

end Gherkin
