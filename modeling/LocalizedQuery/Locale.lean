import LocalizedQuery.Text.Case

/-!
# Locales

A locale is named by a tag such as `en` or `pt-BR`. Rows of localized values carry the tag as it is;
names of joins carry a form of it that can stand inside a name.
-/

namespace LocalizedQuery

/-- A locale tag. -/
structure Locale where
  tag : String
deriving DecidableEq, Repr, Inhabited

/-- The form used inside join aliases: lower case, with underscores for hyphens. -/
def Locale.normalized (locale : Locale) : String :=
  String.ofList ((toLowerCase locale.tag).toList.map fun c => if c = '-' then '_' else c)

end LocalizedQuery
