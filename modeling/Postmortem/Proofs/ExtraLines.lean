import Postmortem.Proofs.Announcement
import Postmortem.Proofs.Preview

/-! # The lines that reports include

Whatever is registered, every line of what a report shows is ended. A preview shows lines that the
full text has, too, and perhaps a last one that points to it.
-/

namespace Postmortem.ExtraLines

open Bytes (newline ended unended)
open Check (Unobtrusive Ordinary)

/-- All lines of a text are ended. -/
def Whole (text : Fragments) : Prop := unended newline text.flatten = []

variable {s t : Fragments} {max : Option Nat}

theorem whole_nil : Whole [] := rfl

theorem Whole.append (hs : Whole s) (ht : Whole t) : Whole (s ++ t) := by
  rw [Whole, List.flatten_append, Bytes.unended_append, hs]
  exact ht

theorem Whole.ended_append (hs : Whole s) (t : Fragments) :
    ended newline (s ++ t).flatten = ended newline s.flatten ++ ended newline t.flatten := by
  rw [List.flatten_append, Bytes.ended_append, hs, List.nil_append]

theorem whole_line (text : Bytes) : Whole (line text) := by
  rw [line]
  split
  · next ends =>
    obtain ⟨front, rfl⟩ := List.getLast?_eq_some_iff.mp ends
    show unended newline ((front ++ [newline]) ++ []) = []
    rw [List.append_nil]
    exact Bytes.unended_concat front
  · show unended newline (text ++ ([newline] ++ [])) = []
    exact Bytes.unended_concat text

theorem whole_heading (key : Bytes) : Whole (heading key) := by
  have text : (heading key).flatten = (newline :: key ++ utf8 ":") ++ [newline] := by
    have colon : utf8 ":\n" = utf8 ":" ++ [newline] := by decide
    simp [heading, colon]
  rw [Whole, text]
  exact Bytes.unended_concat _

theorem whole_truncated : Whole [truncated] := by
  rw [Whole]
  decide +kernel

theorem whole_lines (lines : List Bytes) : Whole (lines.flatMap line) := by
  induction lines with
  | nil => exact whole_nil
  | cons text rest ih => exact (whole_line text).append ih

theorem whole_full (entries : List (Bytes × List Bytes)) : Whole (full entries) := by
  induction entries with
  | nil => exact whole_nil
  | cons entry rest ih =>
      obtain ⟨key, lines⟩ := entry
      rw [full_cons]
      exact ((whole_heading key).append (whole_lines lines)).append ih

theorem whole_front {limit : Nat} {entries : List (Bytes × List Bytes)} (cut : Cut limit entries) :
    Whole cut.front :=
  ((whole_full cut.before).append (whole_heading cut.key)).append (whole_lines cut.shown)

/-! ## Previews -/

/-- What a preview ends with when lines are left out, as a line. -/
def pointer : Bytes := truncated.dropLast

private theorem ended_truncated : ended newline [truncated].flatten = [pointer] := by
  decide +kernel

theorem whole_emit (registry : ExtraLines) (store : LineStore) (max : Option Nat) :
    Whole (registry.emit store max) := by
  unfold emit
  rcases emitEntries_eq max (registry.visible store) with all | ⟨limit, cut, stops⟩
  · rw [all]
    exact whole_full _
  · rw [stops]
    exact (whole_front cut).append whole_truncated

theorem mem_preview {registry : ExtraLines} {store : LineStore} {max : Option Nat} {found : Bytes}
    (h : found ∈ ended newline (registry.emit store max).flatten) :
    found ∈ ended newline (registry.emit store none).flatten ∨ found = pointer := by
  unfold emit at h ⊢
  rw [emitEntries_none]
  rcases emitEntries_eq max (registry.visible store) with all | ⟨limit, cut, stops⟩
  · rw [all] at h
    exact .inl h
  · rw [stops, (whole_front cut).ended_append, ended_truncated, List.mem_append,
      List.mem_singleton] at h
    rw [cut.full_eq, (whole_front cut).ended_append, List.mem_append]
    exact h.imp_left .inl

/-- A preview is unobtrusive if the full text is. -/
theorem unobtrusive_preview {registry : ExtraLines} {store : LineStore}
    (h : Unobtrusive (registry.emit store none).flatten) (max : Option Nat) :
    Unobtrusive (registry.emit store max).flatten := by
  intro found member
  rw [Bytes.pieces_eq, whole_emit, List.mem_append] at member
  obtain member | last := member
  · rcases mem_preview member with inside | rfl
    · refine h found ?_
      rw [Bytes.pieces_eq]
      exact List.mem_append_left _ inside
    · exact ⟨by decide +kernel, by decide +kernel, by decide +kernel⟩
  · rw [List.mem_singleton.mp last]
    exact Check.ordinary_nil

end Postmortem.ExtraLines
