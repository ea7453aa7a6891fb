import ExprLang.Proofs.Check.Bodies
import ExprLang.Proofs.Check.Literals

/-!
# Sessions

Programs that are checked one after another against one table, whether they are
accepted or refused.  Between two of them no frame is left, no global symbol has
changed and, among those that 32 bits allow, no index has been given away twice.
-/

namespace ExprLang

open SymbolTable

/-- The table after a session.  A program that is refused leaves behind what it has
defined until then. -/
def SymbolTable.afterAll (table : SymbolTable) (programs : List Program) :
    SymbolTable :=
  programs.foldl (fun table program => (program.check.runOn table).2) table

private theorem SymbolTable.extends_afterAll (table : SymbolTable)
    (programs : List Program) :
    table.Extends (table.afterAll programs) := by
  induction programs generalizing table with
  | nil => exact Std.Refl.refl table
  | cons program programs ih =>
      exact Trans.trans (program.extends_check table) (ih _)

private theorem SymbolTable.afterAll_append (table : SymbolTable)
    (earlier later : List Program) :
    table.afterAll (earlier ++ later) = (table.afterAll earlier).afterAll later :=
  List.foldl_append

def Program.unnamedIn : List Program → Nat
  | [] => 0
  | program :: programs => Node.unnamedIn program.preorder + unnamedIn programs

private theorem Program.unnamedIn_append (earlier later : List Program) :
    Program.unnamedIn (earlier ++ later) =
      Program.unnamedIn earlier + Program.unnamedIn later := by
  induction earlier with
  | nil => exact (Nat.zero_add _).symm
  | cons program programs ih =>
      rw [List.cons_append, unnamedIn, unnamedIn, ih, Nat.add_assoc]

private theorem SymbolTable.takes_afterAll (table : SymbolTable)
    (programs : List Program) :
    ∃ taken ≤ Program.unnamedIn programs,
      Takes taken table (table.afterAll programs) := by
  induction programs generalizing table with
  | nil => exact ⟨0, Nat.le_refl 0, Takes.refl table⟩
  | cons program programs ih =>
      obtain ⟨taken, hle, htakes, -⟩ := program.taking_check table
      obtain ⟨others, hothersLe, hothers⟩ := ih (program.check.runOn table).2
      exact ⟨taken + others, Nat.add_le_add hle hothersLe, htakes.trans hothers⟩

/-- Global symbols are written once: what is there at some point of a session stays
as it is for the rest of it.  Values have the indices up to their counter, and
functions some of those up to theirs, in order.  As long as the numbers of globals
and of functions without names fit into 32 bits, no index is given twice and no
counter becomes smaller.  An accepted program assigns each top-level name once, and
each function body in it has one type for each name. -/
theorem SymbolTable.globals_written_once (earlier later : List Program) :
    (empty.afterAll earlier).frames = [] ∧
      ((empty.afterAll earlier).globals.map Symbol.name).Nodup ∧
      (∀ name symbol, (empty.afterAll earlier).globals.find? name = some symbol →
        (empty.afterAll (earlier ++ later)).globals.find? name = some symbol) ∧
      Numbers (empty.afterAll earlier).valueIndices
        (empty.afterAll earlier).values ∧
      (∃ given, (empty.afterAll earlier).functionIndices.Sublist given ∧
        Numbers given (empty.afterAll earlier).functions ∧
        given.length ≤ (empty.afterAll earlier).functionIndices.length +
            Program.unnamedIn earlier) ∧
      ((empty.afterAll (earlier ++ later)).globals.length +
            Program.unnamedIn (earlier ++ later) < UInt32.size →
        (empty.afterAll earlier).valueIndices.map UInt32.toNat =
            List.range (empty.afterAll earlier).values.toNat ∧
          (empty.afterAll earlier).functionIndices.Nodup ∧
          (∀ index ∈ (empty.afterAll earlier).functionIndices,
            index < (empty.afterAll earlier).functions) ∧
          (empty.afterAll earlier).values ≤
            (empty.afterAll (earlier ++ later)).values ∧
          (empty.afterAll earlier).functions ≤
            (empty.afterAll (earlier ++ later)).functions) ∧
      ∀ (program new : Program) (final : SymbolTable),
        program.check.Yields (empty.afterAll earlier) new final →
        ((new.statements.flatMap Analysis.assigned).map Variable.name).Nodup ∧
          ∀ entry ∈ new.preorder, entry.2.OneTypePerName := by
  have hbefore := extends_afterAll empty earlier
  have hafter := extends_afterAll (empty.afterAll earlier) later
  obtain ⟨taken, htaken, htakes⟩ := takes_afterAll empty earlier
  obtain ⟨more, hmore, htakesMore⟩ := takes_afterAll (empty.afterAll earlier) later
  rw [← afterAll_append] at hafter htakesMore
  have hframes := hbefore.frames_nil rfl
  have hnames := hbefore.names .nil
  refine ⟨hframes, hnames, ?_, htakes.numbers_values, ?_, ?_, ?_⟩
  · intro name symbol hsymbol
    exact Scope.find?_of_isPrefix hafter.globals hsymbol
  · obtain ⟨given, hsublist, hgiven, hlength⟩ := htakes.numbers_functions
    exact ⟨given, hsublist, hgiven, by omega⟩
  · intro hbound
    rw [Program.unnamedIn_append] at hbound
    exact htakes.exact_of_lt htakesMore (by omega)
  · intro program new final hcheck
    refine ⟨Program.nodup_assigned_of_check hcheck hframes hnames, ?_⟩
    intro entry hentry
    exact (Program.checkedBody_of_check hcheck entry hentry).oneTypePerName

def Program.reassigned : Program := ⟨[
  .assign [⟨"x", none⟩] (.int 1) 1,
  .assign [⟨"x", none⟩] (.int 2) 2]⟩

def Program.squared : Program := ⟨[
  .assign [⟨"f", none⟩]
    (.function [⟨"n", some .int⟩] [] true
      [.assign [⟨"y", none⟩] (.operator .add none (.named "n") (.named "x")) 1,
        .assign [⟨"y", none⟩] (.operator .mul none (.named "y") (.named "y")) 2,
        .result [.named "y"] 3] none) 1]⟩

theorem SymbolTable.reassigned_written_once :
    (∃ error, (Program.reassigned.check.runOn empty).1 = .error error) ∧
      (empty.afterAll [Program.reassigned]).globals.find? "x" =
        some ⟨"x", .int, 0⟩ ∧
      (empty.afterAll [Program.reassigned, Program.squared]).globals.find? "x" =
        some ⟨"x", .int, 0⟩ ∧
      (empty.afterAll [Program.reassigned]).functions ≤
        (empty.afterAll [Program.reassigned, Program.squared]).functions ∧
      ∃ new final,
        Program.squared.check.Yields (empty.afterAll [Program.reassigned])
          new final ∧
        ((new.statements.flatMap Analysis.assigned).map Variable.name).Nodup ∧
        ∀ entry ∈ new.preorder, entry.2.OneTypePerName := by
  obtain ⟨-, -, hkept, -, -, hbounded, haccepted⟩ :=
    globals_written_once [Program.reassigned] [Program.squared]
  have hfits :
      (empty.afterAll [Program.reassigned, Program.squared]).globals.length +
          Program.unnamedIn [Program.reassigned, Program.squared] < UInt32.size :=
    (by decide : 2 + 0 < UInt32.size)
  obtain ⟨-, -, -, -, hfunctions⟩ := hbounded hfits
  refine ⟨⟨_, rfl⟩, rfl, hkept "x" _ rfl, hfunctions, ?_⟩
  have hcheck : ∃ new final, Program.squared.check.Yields
      (empty.afterAll [Program.reassigned]) new final :=
    ⟨_, _, rfl⟩
  obtain ⟨new, final, hcheck⟩ := hcheck
  exact ⟨new, final, hcheck, haccepted Program.squared new final hcheck⟩

end ExprLang
