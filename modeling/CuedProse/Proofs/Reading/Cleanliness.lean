import CuedProse.Proofs.Line.Cleanliness
import CuedProse.Proofs.Visible.Places
import CuedProse.Reading.Session

/-!
# What a frame shows

Frames are meant to show no markup: no closing bracket, so nothing that could be read as a cue.
There is one way around the tidying.

* `renderAll_clean`: every line that is rendered shows clean fragments of its slice.
* `frame_clean_iff`: a line of a frame is free of markup exactly if no marker's letter takes a
  closing bracket along, and a letter does so only where the text has it right before one.
-/
namespace CuedProse

namespace Line

theorem renderAll_clean {pending : Option Group} {slices : List Slice} {l : RenderedLine}
    (h : l ∈ (renderAll pending slices).1) :
    ∃ s ∈ slices, l.line = s.line ∧ ∀ f ∈ l.fragments, f.CleanIn s.text := by
  induction slices generalizing pending with
  | nil => cases h
  | cons s slices ih =>
    unfold renderAll at h
    rcases List.mem_cons.mp h with h | h
    · refine ⟨s, List.mem_cons_self .., by rw [h]; rfl, ?_⟩
      rw [h]
      exact render_clean pending s
    · obtain ⟨s', hs', hl⟩ := ih h
      exact ⟨s', List.mem_cons_of_mem _ hs', hl⟩

end Line

namespace Session

/-- A line of a frame shows clean fragments of the line of the text. -/
theorem frame_line_clean {text : Text} {o : Options} {r : Reader} {p : Float} {l : RenderedLine}
    (h : l ∈ (({ chapter := .ofText text o, reader := r } : Session).update p).2.lines) :
    ∀ f ∈ l.fragments, f.CleanIn (Text.lineAt text l.line) := by
  obtain ⟨s, hs, hline, hclean⟩ := Line.renderAll_clean h
  obtain ⟨w, -, hw⟩ := List.mem_map.mp hs
  have hrevealed : s.text <+: Text.lineAt text l.line := by
    rw [hline, ← hw]
    exact List.take_prefix _ _
  intro f hf
  have hshown := hclean f hf
  cases f with
  | prose t =>
    intro c hc
    obtain ⟨hmem, hne⟩ := hshown c hc
    exact ⟨hrevealed.subset hmem, hne⟩
  | marker glyph group => exact ⟨hshown.1, hshown.2.trans hrevealed.isInfix⟩

/-- **When a frame shows markup.** No line of a frame holds a line feed. It holds no closing bracket
and no cue, unless the glyph of a marker takes a bracket along behind prepended letters; such a
glyph stands in the line of the text as it is. -/
theorem frame_clean_iff (text : Text) (o : Options) (r : Reader) (p : Float) :
    ∀ l ∈ (({ chapter := .ofText text o, reader := r } : Session).update p).2.lines,
      '\n' ∉ l.plain ∧
        ((']' ∉ l.plain ∧ Markup.cues l.plain = []) ↔ ¬ l.TakesBracket) ∧
        ∀ glyph group, Fragment.marker glyph group ∈ l.fragments →
          glyph <:+: Text.lineAt text l.line := by
  intro l hl
  have hclean := frame_line_clean hl
  have hbracket := Line.bracket_mem_plain_iff hclean
  refine ⟨fun hfeed => ?_, ?_, fun glyph group hm => (hclean _ hm).2⟩
  · obtain ⟨f, hf, hmem⟩ := List.mem_flatMap.mp hfeed
    have hshown := hclean f hf
    refine Text.lineFeed_not_mem_lineAt text l.line ?_
    cases f with
    | prose t => exact (hshown '\n' hmem).1
    | marker glyph group => exact hshown.2.subset hmem
  · rw [← hbracket]
    exact ⟨fun h => h.1, fun h => ⟨h, Markup.Scanner.cues_eq_nil h _⟩⟩

/-- A prepended letter takes the bracket behind it along, and the reader sees a whole cue. -/
theorem frame_shows_cue :
    let l : RenderedLine := ⟨0, [.prose "[cue:1|".toList, .marker "\u0d4e]".toList
      ⟨⟨.vfx, ['x'], {}, 8, 19, "[cue:vfx|x]".toList⟩, []⟩]⟩
    l ∈ (({ chapter := .ofText "[]cue:1|[cue:vfx|x]\u0d4e]".toList {} } :
        Session).update 1).2.lines ∧
      ¬ (']' ∉ l.plain ∧ Markup.cues l.plain = []) ∧ (Markup.cues l.plain).length = 1 := by
  intro l
  have hmem : l ∈ (({ chapter := .ofText "[]cue:1|[cue:vfx|x]\u0d4e]".toList {} } :
      Session).update 1).2.lines := by decide +kernel
  have hleading : Glyph.Break.ofChar '\u0d4e' = .leading := by decide +kernel
  have htakes : l.TakesBracket := by
    refine ⟨['\u0d4e'], [], _, List.mem_cons_of_mem _ (List.mem_cons_self ..), ?_, fun c hc => ?_⟩
    · decide +kernel
    · rw [List.mem_singleton.mp hc, hleading]
  have hiff := (frame_clean_iff "[]cue:1|[cue:vfx|x]\u0d4e]".toList {} {} 1 l hmem).2.1
  exact ⟨hmem, fun h => hiff.mp h htakes, by decide +kernel⟩

end Session

end CuedProse
