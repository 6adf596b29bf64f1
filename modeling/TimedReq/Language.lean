import TimedReq.Text.Basic

/-!
# Names of embedded languages

A document says in which language its predicates are written. So far there is one to choose.
-/

namespace TimedReq

/-- The languages of predicates that a document can name. -/
inductive Language where
  | vhdl
deriving DecidableEq

namespace Language

/-- The name of a language. -/
def name : Language → Text
  | vhdl => ['V', 'H', 'D', 'L']

/-- The languages. -/
def all : List Language := [vhdl]

/-- The language of a name. -/
def ofName? (s : Text) : Option Language := all.find? (·.name == s)

theorem ofName?_name (l : Language) : ofName? l.name = some l := by
  cases l
  rfl

end Language

end TimedReq
