/-
# Table.Standard -- the standard operators

The operators of standard Prolog and its common extensions, in the order in which
their names enter the table.
-/
import OperatorGrammar.Table.Basic

namespace OperatorGrammar.Table

set_option autoImplicit false

/-- Precedence, specifier and name of each standard operator. -/
def standardOperators : List (Nat × Specifier × String) :=
  [(1200, .xfx, ":-"), (1200, .xfx, "-->"), (1200, .fx, ":-"), (1200, .fx, "?-"),
   (1150, .fx, "dynamic"), (1150, .fx, "discontiguous"), (1150, .fx, "initialization"),
   (1150, .fx, "multifile"),
   (1100, .xfy, ";"), (1100, .xfy, "|"),
   (1050, .xfy, "->"), (1050, .xfy, "*->"),
   (1000, .xfy, ","),
   (900, .fy, "\\+"),
   (700, .xfx, "="), (700, .xfx, "\\="), (700, .xfx, "=="), (700, .xfx, "\\=="),
   (700, .xfx, "@<"), (700, .xfx, "@>"), (700, .xfx, "@=<"), (700, .xfx, "@>="),
   (700, .xfx, "=.."), (700, .xfx, "is"), (700, .xfx, "=:="), (700, .xfx, "=\\="),
   (700, .xfx, "<"), (700, .xfx, ">"), (700, .xfx, "=<"), (700, .xfx, ">="),
   (600, .xfy, ":"),
   (500, .yfx, "+"), (500, .yfx, "-"), (500, .yfx, "/\\"), (500, .yfx, "\\/"),
   (500, .yfx, "xor"),
   (400, .yfx, "*"), (400, .yfx, "/"), (400, .yfx, "//"), (400, .yfx, "rem"),
   (400, .yfx, "mod"), (400, .yfx, "div"), (400, .yfx, "<<"), (400, .yfx, ">>"),
   (200, .xfx, "**"), (200, .xfy, "^"),
   (200, .fy, "-"), (200, .fy, "+"), (200, .fy, "\\")]

/-- The table of the standard operators. -/
def standard : Table :=
  standardOperators.foldl (fun t (prec, spec, name) => t.insert { name, spec, prec }) empty

end OperatorGrammar.Table
