/-
  Gherkin/Keyword/Builtin.lean
  ============================
  **The bundled languages.**

  Step aliases end in a space where the language separates words, and in
  nothing or an apostrophe where the next word follows directly.  Of two
  aliases that can begin the same line, the longer one comes first.
-/
import Gherkin.Keyword.Catalogue

namespace Gherkin.Builtin

def texts (strings : List String) : List Text := strings.map String.toList

def english : Keywords where
  name := "English".toList
  aliases
    | .feature => texts ["Feature", "Business Need", "Ability"]
    | .rule => texts ["Rule"]
    | .background => texts ["Background"]
    | .scenario => texts ["Example", "Scenario"]
    | .outline => texts ["Scenario Outline", "Scenario Template"]
    | .examples => texts ["Examples", "Scenarios"]
    | .step .context => texts ["* ", "Given "]
    | .step .action => texts ["* ", "When "]
    | .step .outcome => texts ["* ", "Then "]
    | .step .and => texts ["* ", "And "]
    | .step .but => texts ["* ", "But "]

def german : Keywords where
  name := "Deutsch".toList
  aliases
    | .feature => texts ["Funktionalität", "Funktion"]
    | .rule => texts ["Rule", "Regel"]
    | .background => texts
        ["Grundlage", "Hintergrund", "Voraussetzungen", "Vorbedingungen"]
    | .scenario => texts ["Beispiel", "Szenario"]
    | .outline => texts ["Szenariogrundriss", "Szenarien"]
    | .examples => texts ["Beispiele"]
    | .step .context => texts ["* ", "Angenommen ", "Gegeben seien ", "Gegeben sei "]
    | .step .action => texts ["* ", "Wenn "]
    | .step .outcome => texts ["* ", "Dann "]
    | .step .and => texts ["* ", "Und "]
    | .step .but => texts ["* ", "Aber "]

def french : Keywords where
  name := "français".toList
  aliases
    | .feature => texts ["Fonctionnalité"]
    | .rule => texts ["Règle"]
    | .background => texts ["Contexte"]
    | .scenario => texts ["Exemple", "Scénario"]
    | .outline => texts ["Plan du scénario", "Plan du Scénario"]
    | .examples => texts ["Exemples"]
    | .step .context => texts
        ["* ", "Soit ", "Sachant que ", "Sachant qu'", "Sachant ", "Étant donné que ",
         "Étant donné qu'", "Étant donné ", "Etant donné "]
    | .step .action => texts ["* ", "Quand ", "Lorsque ", "Lorsqu'"]
    | .step .outcome => texts ["* ", "Alors ", "Donc "]
    | .step .and => texts ["* ", "Et que ", "Et qu'", "Et "]
    | .step .but => texts ["* ", "Mais que ", "Mais qu'", "Mais "]

def spanish : Keywords where
  name := "español".toList
  aliases
    | .feature => texts ["Característica", "Necesidad del negocio", "Requisito"]
    | .rule => texts ["Regla de negocio", "Regla"]
    | .background => texts ["Antecedentes"]
    | .scenario => texts ["Ejemplo", "Escenario"]
    | .outline => texts ["Esquema del escenario"]
    | .examples => texts ["Ejemplos"]
    | .step .context => texts ["* ", "Dado ", "Dada ", "Dados ", "Dadas "]
    | .step .action => texts ["* ", "Cuando "]
    | .step .outcome => texts ["* ", "Entonces "]
    | .step .and => texts ["* ", "Y ", "E "]
    | .step .but => texts ["* ", "Pero "]

def dutch : Keywords where
  name := "Nederlands".toList
  aliases
    | .feature => texts ["Functionaliteit"]
    | .rule => texts ["Regel"]
    | .background => texts ["Achtergrond"]
    | .scenario => texts ["Voorbeeld", "Scenario"]
    | .outline => texts ["Abstract Scenario"]
    | .examples => texts ["Voorbeelden"]
    | .step .context => texts ["* ", "Gegeven ", "Stel "]
    | .step .action => texts ["* ", "Als ", "Wanneer "]
    | .step .outcome => texts ["* ", "Dan "]
    | .step .and => texts ["* ", "En "]
    | .step .but => texts ["* ", "Maar "]

def japanese : Keywords where
  name := "日本語".toList
  aliases
    | .feature => texts ["フィーチャ", "機能"]
    | .rule => texts ["ルール"]
    | .background => texts ["背景"]
    | .scenario => texts ["シナリオ"]
    | .outline => texts ["シナリオアウトライン", "シナリオテンプレート", "テンプレ", "シナリオテンプレ"]
    | .examples => texts ["例", "サンプル"]
    | .step .context => texts ["* ", "前提"]
    | .step .action => texts ["* ", "もし"]
    | .step .outcome => texts ["* ", "ならば"]
    | .step .and => texts ["* ", "かつ"]
    | .step .but => texts ["* ", "しかし", "但し", "ただし"]

/-- The bundled languages, in the order in which they are listed. -/
def languages : List Language :=
  [⟨"en".toList, english⟩, ⟨"de".toList, german⟩, ⟨"fr".toList, french⟩,
   ⟨"es".toList, spanish⟩, ⟨"nl".toList, dutch⟩, ⟨"ja".toList, japanese⟩]

/-- The code of the language that is assumed without further notice. -/
def standard : Text := "en".toList

def catalogue : Catalogue := .ofLanguages standard languages

end Gherkin.Builtin
