import Longform.Proofs.Markdown.Block.Lines
import Longform.Proofs.Markdown.Block.Reading

/-! Where an aside stays: it reads the lines of its range, and of the line behind it only whether the
line closes an aside. -/
namespace Longform.Markdown.Block
open State

variable {s t after : State} {m b n k start stop depth : Nat}

/-- The state with its first `m` lines only, and the characters up to where they end. -/
def State.upTo (m : Nat) (s : State) : State := s.cut m ((s.lineAt (m - 1)).stop + 1)

theorem State.Lined.le_stop_of_le (h : s.Lined m b) (hn : n ≤ k) (hk : k < m) :
    (s.lineAt n).stop ≤ (s.lineAt k).stop := by
  induction k with
  | zero =>
    obtain rfl := Nat.le_zero.mp hn
    exact Nat.le_refl _
  | succ k ih =>
    by_cases heq : n = k + 1
    · exact Nat.le_of_eq (by rw [heq])
    have hbelow := ih (by omega) (by omega)
    have hapart := h.apart k hk
    have hfits := h.fits (k + 1) hk
    rw [Line.textStart] at hfits
    omega

/-- Fewer lines follow one another, too. -/
theorem State.Lined.upTo (h : s.Lined m b) (hn : n ≤ m) (hpos : 0 < n) :
    s.Lined n ((s.lineAt (n - 1)).stop + 1) where
  size := Nat.le_trans hn h.size
  fits k hk := h.fits k (by omega)
  inside k hk := h.inside k (by omega)
  before k hk := Nat.lt_succ_of_le (h.le_stop_of_le (by omega) (by omega))
  breaks k hk := h.breaks k (by omega)
  apart k hk := h.apart k (by omega)

/-- Of the lines behind its range an aside sees nothing but whether the first closes an aside. -/
theorem aside_upTo (hs : s.Lined stop ((s.lineAt (stop - 1)).stop + 1)) (hquiet : s.IsQuiet stop)
    (hquiet' : t.IsQuiet stop) (ht : t.upTo stop = s.upTo stop) (hstart : start < stop)
    (h : aside (read depth) s start stop = .ok (some after)) :
    after.line ≤ stop ∧ ∃ after', aside (read depth) t start stop = .ok (some after') ∧
      after'.upTo stop = after.upTo stop := by
  have hlast : stop - 1 < stop := by omega
  have hline : t.lineAt (stop - 1) = s.lineAt (stop - 1) := by
    rw [← lineAt_cut hlast,← lineAt_cut (s:=s) hlast]
    exact congrArg (fun u : State => u.lineAt (stop - 1)) ht
  have hcut : t.cut stop ((s.lineAt (stop - 1)).stop + 1) =
      s.cut stop ((s.lineAt (stop - 1)).stop + 1) := by
    rw [State.upTo,State.upTo,hline] at ht
    exact ht
  have ht' : t.Lined stop ((s.lineAt (stop - 1)).stop + 1) :=
    lined_cut_iff.mp (hcut ▸ lined_cut_iff.mpr hs)
  have hboth := aside_both (isLocal_read depth) hs hquiet hstart (Nat.le_refl _)
  have hboth' := aside_both (isLocal_read depth) ht' hquiet' hstart (Nat.le_refl _)
  obtain ⟨_,hx,⟨hkeeps,hnext,rfl⟩⟩ := hboth.exists_right h
  rw [hcut] at hboth'
  obtain ⟨_,hy,⟨hkeeps',-,hsame⟩⟩ := hboth'.exists_left hx
  refine ⟨hnext,_,hy,?_⟩
  rw [State.upTo,State.upTo,lineAt_congr hkeeps.lines,lineAt_congr hkeeps'.lines,hline]
  exact hsame.symm

/-- An aside ends in its range, and everything it reads as its content is in front of its end. Reading
goes on in the range, too, unless the line behind it is the same run of colons. If that line is no run of
three or more colons, neither it nor what follows it makes a difference. -/
theorem aside_stays_in_range (hs : s.Bounded m b) (hstart : start < stop) (hstop : stop ≤ s.lineMax)
    (h : aside (read depth) s start stop = .ok (some after)) :
    ∃ k last, 3 ≤ k ∧ start < last ∧ last ≤ stop ∧
      after.tokens[s.tokens.size]?.bind Token.map = some ((start : Int),(last : Int)) ∧
      (∃ info next inner, read depth (enterAside s (List.replicate k ':') info start last) (start + 1)
          last = .ok inner ∧ after = leaveAside s (List.replicate k ':') next inner) ∧
      s.Keeps after ∧ start < after.line ∧
      (stop < after.line → after.line = stop + 1 ∧
        Text.trim (s.lineText stop) = List.replicate k ':') ∧
      (s.IsQuiet stop → after.line ≤ stop ∧ ∀ t : State, t.IsQuiet stop → t.upTo stop = s.upTo stop →
        ∃ after', aside (read depth) t start stop = .ok (some after') ∧
          after'.upTo stop = after.upTo stop) := by
  have hm : stop ≤ m := Nat.le_trans hstop hs.max
  obtain ⟨marksEnd,last,closed,inner,hmarks,hend,hinner,rfl⟩ := aside_eq_some h
  obtain ⟨k,hk,hmarker⟩ := marker_eq_replicate (hs.inside start (by omega)) hmarks
  rw [hmarker] at hend hinner h ⊢
  have hlt : start < last := lt_asideEnd hstart hend
  obtain ⟨-,hlast,hclosed⟩ := asideEnd_inside (Nat.le_of_lt hstart) hend
  obtain ⟨_,-,hkeeps,-,-⟩ := ((isLocal_read depth).both _ (start + 1) last
    (bounded_enterAside hs.toLined hs.quiet (Nat.le_trans hlast hm)) (Nat.le_refl _)).exists_right hinner
  refine ⟨k,last,hk,hlt,hlast,map_leaveAside hkeeps,⟨_,_,inner,hinner,rfl⟩,keeps_leaveAside hkeeps,
    ?_,?_,fun hq => ?_⟩
  · change start < if closed then last + 1 else last
    split <;> omega
  · intro hover
    change stop < if closed then last + 1 else last at hover
    change (if closed then last + 1 else last) = stop + 1 ∧ _
    cases closed with
    | false => exact absurd hlast (Nat.not_le_of_lt hover)
    | true =>
      obtain rfl : last = stop := Nat.le_antisymm hlast (Nat.le_of_lt_succ hover)
      exact ⟨rfl,hclosed rfl⟩
  · have hlined := hs.toLined.upTo hm (Nat.lt_of_le_of_lt (Nat.zero_le _) hstart)
    have hupTo := fun t ht ht' => aside_upTo (t:=t) hlined hq ht ht' hstart h
    exact ⟨(hupTo s hq rfl).1,fun t ht ht' => (hupTo t ht ht').2⟩

theorem aside_stays_in_range_two :
    let s := State.ofText ":::\na\nb".toList
    ∃ after, aside (read 1) s 0 2 = .ok (some after) ∧ s.Keeps after ∧ 0 < after.line ∧ after.line ≤ 2 ∧
      ∃ last, 0 < last ∧ last ≤ 2 ∧
        after.tokens[0]?.bind Token.map = some ((0 : Int),((last : Nat) : Int)) := by
  intro s
  have htext : Text.trim (s.lineText 2) = ['b'] := by decide +kernel
  have hquiet : s.IsQuiet 2 := by
    intro k hk he
    have hlength := congrArg List.length (htext.symm.trans he)
    rw [List.length_replicate] at hlength
    exact absurd hk (hlength ▸ by decide)
  have hreads : (aside (read 1) s 0 2).toOption.join.isSome = true := by decide +kernel
  obtain ⟨after,h⟩ : ∃ after, aside (read 1) s 0 2 = .ok (some after) := by
    rcases h : aside (read 1) s 0 2 with e | _ | after <;> rw [h] at hreads
    · cases hreads
    · cases hreads
    · exact ⟨after,rfl⟩
  obtain ⟨k,last,-,hlt,hle,hmap,-,hkeeps,hgoesOn,-,hends⟩ :=
    aside_stays_in_range (bounded_ofText _) (by decide) (by decide +kernel) h
  exact ⟨after,h,hkeeps,hgoesOn,(hends hquiet).1,last,hlt,hle,hmap⟩

/-- The marker on the line behind a quote closes the aside that the quote holds. The line goes with the
aside, and the quote with it. -/
theorem aside_leaves_range :
    let text := "> :::\n> a\n:::".toList
    let s := State.ofText text
    let first := unquote s (s.lineAt 0)
    ((quoteFrom 3 3 1 first.isEmpty ((s.under .quote).setLine 0 first)).toOption.bind fun x =>
      (aside (read 1) (enterQuote x.1) 0 x.2).toOption.join.map fun after => (x.2,after.line)) =
        some (2,3) ∧
    (parse text).toOption.map (fun r => r.1.map fun t => (t.kind,t.map)) =
      some [("blockquote_open",some (0,3)),("aside_open",some (0,2)),("paragraph_open",some (1,2)),
        ("inline",some (1,2)),("paragraph_close",none),("aside_close",none),("blockquote_close",none)] := by
  decide +kernel

end Longform.Markdown.Block
