import PlainVerse.Gene.Document
import Mathlib.Data.List.Basic

/-!
# Bundling with an index

All genes can be kept in one growing list, with an index to the open one. Every access through the
index is checked here, and an access out of range makes the whole run fail. The run never fails,
and it ends with the genes of the bundle, which keeps the open gene apart and has no index.
-/
namespace PlainVerse.Gene

open Poem

/-- The genes so far, the index of the open one, and the summaries that wait. -/
structure Cursor where
  genes : List Gene
  current : Option Nat
  pending : List Summary

namespace Cursor

def empty : Cursor := ⟨[], none, []⟩

/-- Changes the gene at an index. There must be one. -/
def modify? (cursor : Cursor) (index : Nat) (change : Gene → Gene) : Option Cursor :=
  if index < cursor.genes.length then
    some { cursor with genes := cursor.genes.modify index change }
  else none

def push (cursor : Cursor) (gene : Gene) : Cursor :=
  { cursor with genes := cursor.genes ++ [gene] }

/-- Moves what waits to the open gene, if there is one. -/
def flush? (cursor : Cursor) : Option Cursor :=
  match cursor.current with
  | none => some cursor
  | some index =>
      (cursor.modify? index fun gene =>
        { gene with statements := gene.statements ++ cursor.pending }).map
        ({ · with pending := [] })

def wait (cursor : Cursor) (statement : Statement) : Cursor :=
  { cursor with pending := cursor.pending ++ [.ofStatement statement] }

def attach? (cursor : Cursor) (statement : Statement) (op : String) (alone : Gene) :
    Option Cursor :=
  match cursor.current with
  | none => some (cursor.push alone)
  | some index => (cursor.modify? index (·.pushOp op)).map (·.wait statement)

def add? (cursor : Cursor) (statement : Statement) : Option Cursor :=
  match statement with
  | .gene _ decl =>
      cursor.flush?.map fun flushed =>
        { flushed.push (declared decl) with current := some flushed.genes.length }
  | .trigger _ condition children => some (cursor.push (trigger condition children))
  | .emit _ topic payload => cursor.attach? statement emitOp (emit topic payload)
  | .invoke _ path args => cursor.attach? statement (toolOp path) (tool path args)
  | .name .. | .remember .. | .text .. => some (cursor.wait statement)

def finish? (cursor : Cursor) (options : Options) : Option (List Gene) :=
  cursor.flush?.map fun flushed =>
    if flushed.current.isNone && !flushed.pending.isEmpty || flushed.genes.isEmpty then
      flushed.genes ++ [fallback options.name options.cmd flushed.pending]
    else flushed.genes

/-- Adds all statements and closes the last gene. -/
def run? (options : Options) (statements : List Statement) : Option (List Gene) :=
  (statements.foldlM add? empty).bind (·.finish? options)

end Cursor

/-- A bundle as one list with an index. -/
def Bundle.cursor (bundle : Bundle) : Cursor :=
  match bundle.current with
  | none => ⟨bundle.closed, none, bundle.waiting⟩
  | some ⟨gene, followers⟩ =>
      ⟨bundle.closed ++ gene :: followers, some bundle.closed.length, bundle.waiting⟩

theorem modify_append_length {α : Type} (front : List α) (a : α) (rest : List α)
    (change : α → α) :
    (front ++ a :: rest).modify front.length change = front ++ change a :: rest := by
  rw [List.modify_eq_take_cons_drop (by simp)]
  simp

/-- The open gene is in range. -/
theorem Cursor.modify?_open (closed followers : List Gene) (gene : Gene) (pending : List Summary)
    (change : Gene → Gene) :
    (Cursor.mk (closed ++ gene :: followers) (some closed.length) pending).modify? closed.length
        change =
      some ⟨closed ++ change gene :: followers, some closed.length, pending⟩ := by
  rw [modify?, if_pos (by simp), modify_append_length]

theorem Bundle.cursor_addGene (bundle : Bundle) (gene : Gene) :
    bundle.cursor.push gene = (bundle.addGene gene).cursor := by
  obtain ⟨closed, current, waiting⟩ := bundle
  cases current with
  | none => rfl
  | some openGene => simp [cursor, addGene, Cursor.push]

theorem Bundle.cursor_wait (bundle : Bundle) (statement : Statement) :
    bundle.cursor.wait statement = (bundle.wait statement).cursor := by
  obtain ⟨closed, current, waiting⟩ := bundle
  cases current <;> rfl

theorem Bundle.cursor_attach (bundle : Bundle) (statement : Statement) (op : String)
    (alone : Gene) :
    bundle.cursor.attach? statement op alone =
      some (bundle.attach statement op alone).cursor := by
  obtain ⟨closed, current, waiting⟩ := bundle
  cases current with
  | none => rfl
  | some openGene =>
      simp only [cursor, Cursor.attach?, Cursor.modify?_open, Option.map_some]
      rfl

/-- Flushing keeps the index, while closing a bundle gives it up. -/
theorem Bundle.cursor_flush (bundle : Bundle) :
    bundle.cursor.flush? =
      some ⟨bundle.close.closed, bundle.cursor.current, bundle.close.waiting⟩ := by
  obtain ⟨closed, current, waiting⟩ := bundle
  cases current with
  | none => rfl
  | some openGene =>
      simp only [cursor, Cursor.flush?, Cursor.modify?_open, Option.map_some]
      rfl

/-- One statement: the access succeeds and both sides move alike. -/
theorem Bundle.cursor_add (bundle : Bundle) (statement : Statement) :
    bundle.cursor.add? statement = some (bundle.add statement).cursor := by
  cases statement with
  | gene line decl =>
      simp only [Cursor.add?, cursor_flush, Option.map_some]
      rfl
  | trigger line condition children => exact congrArg some (cursor_addGene bundle _)
  | emit line topic payload => exact cursor_attach bundle _ _ _
  | invoke line path args => exact cursor_attach bundle _ _ _
  | name line given => exact congrArg some (cursor_wait bundle _)
  | remember line key value => exact congrArg some (cursor_wait bundle _)
  | text line words score => exact congrArg some (cursor_wait bundle _)

theorem Bundle.cursor_foldl (bundle : Bundle) (statements : List Statement) :
    statements.foldlM Cursor.add? bundle.cursor = some (statements.foldl add bundle).cursor := by
  induction statements generalizing bundle with
  | nil => rfl
  | cons statement rest ih =>
      rw [List.foldlM_cons, cursor_add, List.foldl_cons, ← ih]
      rfl

theorem Bundle.cursor_finish (bundle : Bundle) (options : Options) :
    bundle.cursor.finish? options = some (bundle.genes options) := by
  rw [Cursor.finish?, cursor_flush, Option.map_some]
  obtain ⟨closed, current, waiting⟩ := bundle
  cases current with
  | none => rfl
  | some openGene => simp [cursor, genes, close]

/-- No access through the index is ever out of range, and the result is that of the bundle. -/
theorem Cursor.run?_eq (options : Options) (statements : List Statement) :
    run? options statements =
      some ((statements.foldl Bundle.add .empty).genes options) := by
  have start : Cursor.empty = Bundle.empty.cursor := rfl
  rw [run?, start, Bundle.cursor_foldl, Option.bind_some, Bundle.cursor_finish]

end PlainVerse.Gene
