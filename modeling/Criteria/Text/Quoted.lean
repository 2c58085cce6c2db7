/-!
# Quoted text

Inside double quotes every character stands for itself, and a quote is written twice.

## What is here

* `Quoted.double` — the text with every quote written twice; `Quoted.undouble` undoes it.
* `Quoted.split` — the text behind an opening quote, cut at its closing quote; `Quoted.split_eq`
  says that nothing is lost.
* `Quoted.skip` — what follows the closing quote, without the text before it.
-/

set_option autoImplicit false

namespace Criteria
namespace Text
namespace Quoted

/-- The text with every quote written twice. -/
def double (cs : List Char) : List Char :=
  cs.flatMap fun c => if c = '"' then ['"', '"'] else [c]

/-- The text that a written body stands for, behind the text `done`. -/
def undouble (done : String) : List Char → String
  | '"' :: '"' :: cs => undouble (done.push '"') cs
  | c :: cs => undouble (done.push c) cs
  | [] => done

/-- Cuts the text behind an opening quote into the body as it is written and the text behind the
closing quote.  The characters of `read`, the last one first, precede it in the body. -/
def split (read : List Char) : List Char → Option (List Char × List Char)
  | [] => none
  | '"' :: '"' :: cs => split ('"' :: '"' :: read) cs
  | '"' :: cs => some (read.reverse, cs)
  | c :: cs => split (c :: read) cs

/-- The text behind the closing quote. -/
def skip : List Char → Option (List Char)
  | [] => none
  | '"' :: '"' :: cs => skip cs
  | '"' :: cs => some cs
  | _ :: cs => skip cs

theorem split_eq {read cs body rest : List Char} (h : split read cs = some (body, rest)) :
    read.reverse ++ cs = body ++ '"' :: rest := by
  fun_induction split read cs with
  | case1 => cases h
  | case2 read cs ih => simpa using ih h
  | case3 read cs => cases h; rfl
  | case4 read c cs _ _ ih => simpa using ih h

end Quoted
end Text
end Criteria
