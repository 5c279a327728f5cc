import Mathlib.Data.List.Induction
import OtaUpdater.Lib.Paged

/-!
# Patches over a filler

A buffer that starts out empty and grows to hold every patch put into it. The
last patch that covers a place decides what is there, and a filler stands where
none does.
-/

open OtaUpdater.Lib.Paged

namespace OtaUpdater.Lib.Overlay

structure Patch (α : Type) where
  start : Nat
  data : List α

section Patches

variable {α : Type} (filler : α)

def Patch.stop (p : Patch α) : Nat := p.start + p.data.length

/-- What a patch puts at place `i`. -/
def Patch.at (p : Patch α) (i : Nat) : Option α :=
  if p.start ≤ i then p.data[i - p.start]? else none

def grow (out : List α) (n : Nat) : List α := out ++ List.replicate (n - out.length) filler

def place (out : List α) (p : Patch α) : List α := overwrite (grow filler out p.stop) p.start p.data

def overlay (ps : List (Patch α)) : List α := ps.foldl (place filler) []

/-- What the patches put at place `i`, the last of them first. -/
def written (ps : List (Patch α)) (i : Nat) : Option α := ps.reverse.findSome? fun p => p.at i

theorem length_grow (out : List α) (n : Nat) : (grow filler out n).length = max out.length n := by
  unfold grow
  rw [List.length_append, List.length_replicate]
  omega

theorem getD_grow (out : List α) (n i : Nat) : (grow filler out n).getD i filler = out.getD i filler := by
  unfold grow
  rw [List.getD_eq_getElem?_getD, List.getD_eq_getElem?_getD]
  rcases Nat.lt_or_ge i out.length with hlt | hge
  · rw [List.getElem?_append_left hlt]
  · rw [List.getElem?_append_right hge, List.getElem?_eq_none hge, List.getElem?_replicate]
    split_ifs <;> rfl

theorem length_place (out : List α) (p : Patch α) :
    (place filler out p).length = max out.length p.stop := by
  have hgrow := length_grow filler out p.stop
  unfold place
  rw [length_overwrite _ _ _ (by rw [hgrow, Patch.stop]; omega), hgrow]

theorem getD_place (out : List α) (p : Patch α) (i : Nat) :
    (place filler out p).getD i filler = (p.at i).getD (out.getD i filler) := by
  have hgrow := length_grow filler out p.stop
  have hstop : p.stop = p.start + p.data.length := rfl
  have hold := getD_grow filler out p.stop i
  rw [List.getD_eq_getElem?_getD] at hold
  unfold place Patch.at
  rw [List.getD_eq_getElem?_getD, getElem?_overwrite _ _ _ _ (by omega)]
  rcases Nat.lt_or_ge i p.start with hbefore | hge
  · rw [if_neg (by omega), if_neg (by omega), hold]
    rfl
  rcases Nat.lt_or_ge i p.stop with hin | hbehind
  · rw [if_pos ⟨hge, by omega⟩, if_pos hge, List.getElem?_eq_getElem (by omega)]
    rfl
  · rw [if_neg (by omega), if_pos hge, hold, List.getElem?_eq_none (by omega)]
    rfl

/-! ## All patches -/

theorem overlay_append (ps : List (Patch α)) (p : Patch α) :
    overlay filler (ps ++ [p]) = place filler (overlay filler ps) p := by
  unfold overlay
  rw [List.foldl_append]
  rfl

theorem written_append (ps : List (Patch α)) (p : Patch α) (i : Nat) :
    written (ps ++ [p]) i = (p.at i).or (written ps i) := by
  unfold written
  rw [List.reverse_append, List.findSome?_append, List.reverse_singleton]
  simp

theorem length_overlay (ps : List (Patch α)) :
    (overlay filler ps).length = (ps.map Patch.stop).foldl max 0 := by
  induction ps using List.reverseRecOn with
  | nil => rfl
  | append_singleton ps p ih =>
    rw [overlay_append, length_place, ih, List.map_append, List.foldl_append]
    rfl

theorem getD_overlay (ps : List (Patch α)) (i : Nat) :
    (overlay filler ps).getD i filler = (written ps i).getD filler := by
  induction ps using List.reverseRecOn with
  | nil => rfl
  | append_singleton ps p ih =>
    rw [overlay_append, getD_place, ih, written_append]
    rcases p.at i with _ | b
    · rfl
    · rfl

end Patches

end OtaUpdater.Lib.Overlay
