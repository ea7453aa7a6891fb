import ExprLang.Proofs.Outcome
import ExprLang.Proofs.Window.Cut
import ExprLang.Tree.VariableList

/-!
# What literals and variable lists denote

The grammar of type literals and of lists of variables, as relations between tokens
and what they denote.  A reader that succeeds has read tokens of the grammar, and
what it leaves stands after them.
-/

namespace ExprLang

open Outcome

/-! ## Types -/

namespace TypeLiteral

mutual

inductive Denotes : List Token → Ty → Prop
  | primitive {token : Token} {base : Primitive} (hkind : token.kind = .typeName)
      (hname : Primitive.ofName? token.text = some base) :
      Denotes [token] (.primitive base)
  | array {mark : Token} {tokens : List Token} {element : Ty}
      (hkind : mark.kind = .arrayMark) (h : Denotes tokens element) :
      Denotes (mark :: tokens) (.array element)
  | function {inner outer source target : List Token} {arrow : Token}
      {arguments returns : List Ty} (hsource : Bracketed .paren inner source)
      (harrow : arrow.kind = .arrow) (htarget : Bracketed .paren outer target)
      (harguments : EachDenotes (Comma.pieces inner) arguments)
      (hreturns : EachDenotes (Comma.pieces outer) returns) :
      Denotes (source ++ arrow :: target) (.function arguments returns none)

inductive EachDenotes : List (List Token) → List Ty → Prop
  | nil : EachDenotes [] []
  | skip {pieces : List (List Token)} {types : List Ty}
      (h : EachDenotes pieces types) :
      EachDenotes ([] :: pieces) types
  | cons {tokens : List Token} {type : Ty} {pieces : List (List Token)}
      {types : List Ty} (hfirst : Denotes tokens type)
      (h : EachDenotes pieces types) :
      EachDenotes (tokens :: pieces) (type :: types)

end

def Begins (tokens : List Token) (type : Ty) (rest : List Token) : Prop :=
  ∃ literal, Denotes literal type ∧ tokens = literal ++ rest

theorem begins_of_read :
    (∀ tokens type rest,
        read tokens = .ok (some (type, rest)) → Begins tokens type rest) ∧
      ∀ pieces types, readPieces pieces = .ok types → EachDenotes pieces types := by
  refine TypeLiteral.read.mutual_induct
    (fun tokens =>
      ∀ type rest, read tokens = .ok (some (type, rest)) → Begins tokens type rest)
    (fun pieces =>
      ∀ types, readPieces pieces = .ok types → EachDenotes pieces types) ?_ ?_ ?_ ?_
    ?_ ?_ ?_ ?_ ?_
  · intro type rest h
    simp [read] at h
  · intro token tail hkind primitive hname type rest h
    rw [read] at h
    simp only [hkind, hname] at h
    cases h
    exact ⟨[token], .primitive hkind hname, rfl⟩
  · intro token tail hkind hname type rest h
    rw [read] at h
    simp only [hkind, hname] at h
    cases h
  · intro token tail hkind ih type rest h
    rw [read] at h
    simp only [hkind, bind_eq_ok_iff] at h
    obtain ⟨found, hfound, h⟩ := h
    cases found with
    | none => cases h
    | some pair =>
        cases h
        obtain ⟨literal, hliteral, rfl⟩ := ih pair.1 pair.2 hfound
        exact ⟨token :: literal, .array hkind hliteral, rfl⟩
  · intro token tail hcut htypeName harrayMark type rest h
    rw [read_eq_cut htypeName harrayMark, hcut] at h
    cases h
  · intro token tail cut hcut htypeName harrayMark iharguments ihreturns type rest h
    rw [read_eq_cut htypeName harrayMark, hcut] at h
    simp only [Option.elim_some, bind_eq_ok_iff] at h
    obtain ⟨arguments, harguments, returns, hreturns, h⟩ := h
    cases h
    obtain ⟨source, arrow, target, hsource, harrow, htarget, htokens⟩ :=
      FunctionTypeCut.exists_of_ofTokens? hcut
    exact ⟨source ++ arrow :: target,
      .function hsource harrow htarget (iharguments arguments harguments)
        (ihreturns returns hreturns),
      htokens⟩
  · intro types h
    rw [readPieces] at h
    cases h
    exact .nil
  · intro pieces ih types h
    rw [readPieces] at h
    exact .skip (ih types h)
  · intro first others pieces ihFirst ih types h
    rw [readPieces] at h
    simp only [bind_eq_ok_iff] at h
    obtain ⟨found, hfound, h⟩ := h
    split at h
    · rename_i type
      simp only [bind_eq_ok_iff] at h
      obtain ⟨later, hlater, h⟩ := h
      cases h
      obtain ⟨literal, hliteral, htokens⟩ := ihFirst type [] hfound
      rw [List.append_nil] at htokens
      exact .cons (htokens ▸ hliteral) (ih later hlater)
    · cases h
    · cases h

end TypeLiteral

/-! ## Variables -/

namespace VariableList

inductive Declares : List Token → Variable → Prop
  | plain {name : Token} (hname : name.kind = .identifier) :
      Declares [name] ⟨name.text, none⟩
  | typed {name : Token} {literal : List Token} {type : Ty}
      (hname : name.kind = .identifier) (htype : TypeLiteral.Denotes literal type) :
      Declares (name :: literal) ⟨name.text, some type⟩
  | annotated {name colon : Token} {literal : List Token} {type : Ty}
      (hname : name.kind = .identifier) (hcolon : colon.kind = .colon)
      (htype : TypeLiteral.Denotes literal type) :
      Declares (name :: colon :: literal) ⟨name.text, some type⟩

inductive DeclaresAll : List Token → List Variable → Prop
  | nil : DeclaresAll [] []
  | last {tokens : List Token} {target : Variable} (h : Declares tokens target) :
      DeclaresAll tokens [target]
  | cons {tokens rest : List Token} {comma : Token} {target : Variable}
      {targets : List Variable} (hfirst : Declares tokens target)
      (hcomma : comma.kind = .comma) (h : DeclaresAll rest targets) :
      DeclaresAll (tokens ++ comma :: rest) (target :: targets)

theorem exists_of_declaredType {name : Token} {rest after : List Token}
    {type? : Option Ty} (hname : name.kind = .identifier)
    (h : declaredType name rest = .ok (type?, after)) :
    ∃ tokens,
      Declares (name :: tokens) ⟨name.text, type?⟩ ∧ rest = tokens ++ after := by
  simp only [declaredType] at h
  split at h
  · cases h
  · rename_i type later hread
    cases h
    obtain ⟨literal, hliteral, htokens⟩ :=
      TypeLiteral.begins_of_read.1 _ type after hread
    cases rest with
    | nil => exact ⟨literal, .typed hname hliteral, by simpa using htokens⟩
    | cons token rest =>
        by_cases hcolon : token.kind = .colon
        · have htokens : rest = literal ++ after := by simpa [hcolon] using htokens
          exact ⟨token :: literal, .annotated hname hcolon hliteral,
            by simp [htokens]⟩
        · exact ⟨literal, .typed hname hliteral, by simpa [hcolon] using htokens⟩
  · split at h
    · cases h
    · rename_i hcolon
      cases h
      exact ⟨[], .plain hname, by simp⟩

theorem declaresAll_of_read {tokens : List Token} {targets : List Variable}
    (h : read tokens = .ok targets) :
    DeclaresAll tokens targets := by
  fun_induction read tokens generalizing targets with
  | case1 =>
      cases h
      exact .nil
  | case2 | case3 | case5 | case6 => cases h
  | case4 name rest hname type? htype =>
      cases h
      obtain ⟨tokens, hdeclares, rfl⟩ :=
        exists_of_declaredType (by simpa using hname) htype
      rw [List.append_nil]
      exact .last hdeclares
  | case7 name rest hname type? comma others htype hcomma _ ih =>
      obtain ⟨later, hlater, rfl⟩ := map_eq_ok_iff.1 h
      obtain ⟨tokens, hdeclares, rfl⟩ :=
        exists_of_declaredType (by simpa using hname) htype
      exact .cons hdeclares (by simpa using hcomma) (ih hlater)

end VariableList

end ExprLang
