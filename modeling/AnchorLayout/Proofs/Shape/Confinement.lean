import AnchorLayout.Proofs.Decimal.Midpoint
import AnchorLayout.Proofs.Shape.Record

/-!
# Shapes within the view box

If no edge of a shape is warned of, all points that it publishes lie within the
view box — provided that its left edge is to the left of its right one, and its
upper one above its lower one, as it is the left edge that is held against the
left limit only, and the right one against the right limit only. Sizes may be
negative, though, and then the edges are exchanged. A shape that gives no
warning may then lie beyond the view box as a whole. What is left of it is told
by `Shape.confines_iff_fits`.
-/

namespace AnchorLayout

open AnchorLayout.Action Decimal

/-! ## Confinement -/

/-- A number is within limits. -/
def Within (least greatest x : Float) : Prop := least ≤ x ∧ x ≤ greatest

namespace ViewBox

/-- A point lies in the view box. -/
def Contains (v : ViewBox) (p : Point) : Prop :=
  Within v.minX v.maxX p.x ∧ Within v.minY v.maxY p.y

/-- Each point that is among the anchors lies in the view box, and so does each
    corner that is made of two edges among them. -/
structure Confines (v : ViewBox) (as : Anchors) : Prop where
  points : ∀ name p, as.point? name = some p → v.Contains p
  corners : ∀ a ∈ ["left", "right"], ∀ b ∈ ["top", "bottom"], ∀ x y,
    as.number? a = some x → as.number? b = some y → v.Contains ⟨x, y⟩

/-- The view box is made of finite numbers. -/
def IsFinite (v : ViewBox) : Prop :=
  v.minX.isFinite ∧ v.minY.isFinite ∧ v.width.isFinite ∧ v.height.isFinite

end ViewBox

/-- The second registry has no warnings on edges that the first one has not. -/
def Registry.Silent (v : ViewBox) (r r' : Registry) : Prop :=
  ∀ d ∈ r'.diagnostics.drop r.diagnostics.length, ∀ edge, ¬ Edge.Warns v edge d.message

namespace Shape

/-! ## Along an axis -/

/-- Edges along an axis, the middle between them, and a size that tells their
    order. -/
structure Reach (near far middle size : Float) : Prop where
  isNaN_near : near.isNaN = false
  isNaN_far : far.isNaN = false
  isNaN_middle : middle.isNaN = false
  isNaN_size : size.isNaN = false
  mem : rank middle ∈ Set.uIcc (rank near) (rank far)
  le : 0 ≤ rank size → rank near ≤ rank far

/-- A start and a size reach from the one end to the other, the middle among
    them. -/
theorem reach_extent {a n : Float} (h : HasSum a n) : Reach a (a + n) (a + n / 2) n where
  isNaN_near := h.isNaN_left
  isNaN_far := h.isNaN_add
  isNaN_middle := h.half.isNaN_add
  isNaN_size := h.isNaN_right
  mem := rank_add_half h
  le := rank_le_rank_add h

/-- So do a middle and a radius. -/
theorem reach_radius {c r : Float} (hc : c.isFinite) (hr : r.isFinite) :
    Reach (c - r) (c + r) c r where
  isNaN_near := isNaN_of_rank_eq (rank_sub hc hr)
  isNaN_far := isNaN_of_rank_eq (rank_add hc hr)
  isNaN_middle := isNaN_of_isFinite hc
  isNaN_size := isNaN_of_isFinite hr
  mem := rank_mem_radius hc hr
  le := rank_sub_le_rank_add hc hr

theorem reach_point {x : Float} (hx : x.isFinite) : Reach x x x 0 where
  isNaN_near := isNaN_of_isFinite hx
  isNaN_far := isNaN_of_isFinite hx
  isNaN_middle := isNaN_of_isFinite hx
  isNaN_size := isNaN_of_isFinite isFinite_zero
  mem := Set.left_mem_uIcc
  le _ := le_rfl

/-- If neither edge is warned of, they and the middle are within the limits
    exactly if the edges are in order, or within the limits all the same. -/
theorem Reach.within_iff {near far middle size least greatest : Float}
    (h : Reach near far middle size) (hl : least.isNaN = false) (hg : greatest.isNaN = false)
    (hnear : ¬ near < least) (hfar : ¬ greatest < far) :
    Within least greatest near ∧ Within least greatest far ∧ Within least greatest middle ↔
      0 ≤ size ∨ near ≤ greatest ∧ least ≤ far := by
  obtain ⟨hn, hf, hm, hs, hmem, hle⟩ := h
  have hz : (0 : Float).isNaN = false := isNaN_of_isFinite isFinite_zero
  rw [lt_iff_rank_lt hn hl] at hnear
  rw [lt_iff_rank_lt hg hf] at hfar
  rw [Set.mem_uIcc] at hmem
  simp only [Within, le_iff_rank_le, hl, hg, hn, hf, hm, hs, hz, rank_zero]
  omega

theorem rank_lesser {x y : Float} (hx : x.isNaN = false) (hy : y.isNaN = false) :
    rank (lesser x y) = min (rank x) (rank y) := by
  unfold lesser
  split_ifs with h <;> rw [lt_iff_rank_lt hy hx] at h <;> omega

theorem rank_greater {x y : Float} (hx : x.isNaN = false) (hy : y.isNaN = false) :
    rank (greater x y) = max (rank x) (rank y) := by
  unfold greater
  split_ifs with h <;> rw [lt_iff_rank_lt hx hy] at h <;> omega

/-- If neither of two ends is warned of, they are within the limits, and so is
    their middle unless their sum is infinite and not within the limits
    itself. -/
theorem within_ends_iff {x y least greatest : Float} (hx : x.isFinite) (hy : y.isFinite)
    (hl : least.isNaN = false) (hg : greatest.isNaN = false)
    (hlesser : ¬ lesser x y < least) (hgreater : ¬ greatest < greater x y) :
    Within least greatest x ∧ Within least greatest y ∧ Within least greatest ((x + y) / 2) ↔
      (x + y).isFinite ∨ Within least greatest (x + y) := by
  have hx' := isNaN_of_isFinite hx
  have hy' := isNaN_of_isFinite hy
  have hsum := isNaN_of_rank_eq (rank_add hx hy)
  have hlesser' : (lesser x y).isNaN = false := by unfold lesser; split_ifs <;> assumption
  have hgreater' : (greater x y).isNaN = false := by unfold greater; split_ifs <;> assumption
  rw [lt_iff_rank_lt hlesser' hl, rank_lesser hx' hy'] at hlesser
  rw [lt_iff_rank_lt hg hgreater', rank_greater hx' hy'] at hgreater
  obtain h | h := isFinite_or_isInf hsum
  · have hmid := rank_midpoint hx hy h
    have hmid' := isNaN_of_isFinite (isFinite_half h)
    rw [Set.mem_uIcc] at hmid
    simp only [Within, le_iff_rank_le, hl, hg, hx', hy', hmid', h, true_or, iff_true]
    omega
  · have hmid := rank_half_of_isInf h
    have hmid' := isNaN_of_isInf (isInf_half h)
    have hfin : ¬ (x + y).isFinite := by
      rw [isFinite_iff, (isInf_iff _).1 h]
      exact lt_irrefl _
    rw [or_iff_right hfin]
    simp only [Within, le_iff_rank_le, hl, hg, hx', hy', hmid', hsum, hmid]
    omega

/-! ## What is published -/

variable {v : ViewBox} {id : ShapeId} {as : Anchors}

theorem point_mem {name : String} {p : Point} (h : as.point? name = some p) :
    (name, Anchor.point p) ∈ as := by
  unfold Anchors.point? at h
  split at h
  · next hg =>
    cases h
    exact Table.mem_of_get? hg
  · cases h

/-- Corners that are made of edges within the limits lie in the view box. -/
theorem contains_corner {l r t b : Float} (hleft : as.number? "left" = some l)
    (hright : as.number? "right" = some r) (htop : as.number? "top" = some t)
    (hbottom : as.number? "bottom" = some b)
    (hx : Within v.minX v.maxX l ∧ Within v.minX v.maxX r)
    (hy : Within v.minY v.maxY t ∧ Within v.minY v.maxY b) :
    ∀ name ∈ ["left", "right"], ∀ name' ∈ ["top", "bottom"], ∀ x y,
      as.number? name = some x → as.number? name' = some y → v.Contains ⟨x, y⟩ := by
  simp only [List.forall_mem_cons, List.not_mem_nil, false_imp_iff, implies_true, and_true, hleft,
    hright, htop, hbottom, Option.some.injEq]
  refine ⟨⟨?_, ?_⟩, ?_, ?_⟩ <;> rintro _ _ rfl rfl
  · exact ⟨hx.1, hy.1⟩
  · exact ⟨hx.1, hy.2⟩
  · exact ⟨hx.2, hy.1⟩
  · exact ⟨hx.2, hy.2⟩

/-- The anchors of a rectangle tell of its ends and of its middle along each
    axis. -/
theorem confines_rect_iff {h w : Extent} {rotation : Float}
    (has : Anchors.ofMembers id (rectAnchors h w rotation) = .ok as) :
    v.Confines as ↔
      (Within v.minX v.maxX h.start ∧ Within v.minX v.maxX (h.start + h.size) ∧
        Within v.minX v.maxX (h.start + h.size / 2)) ∧
      (Within v.minY v.maxY w.start ∧ Within v.minY v.maxY (w.start + w.size) ∧
        Within v.minY v.maxY (w.start + w.size / 2)) := by
  cases has
  constructor
  · intro hc
    have hleft := hc.points "topLeft" _ rfl
    have hright := hc.points "bottomRight" _ rfl
    have hcenter := hc.points "center" _ rfl
    exact ⟨⟨hleft.1, hright.1, hcenter.1⟩, hleft.2, hright.2, hcenter.2⟩
  · rintro ⟨⟨hl, hr, hx⟩, ht, hb, hy⟩
    refine ⟨fun name p hp => ?_, contains_corner rfl rfl rfl rfl ⟨hl, hr⟩ ⟨ht, hb⟩⟩
    have hmem := point_mem hp
    simp only [List.mem_cons, Prod.mk.injEq, reduceCtorEq, and_false, false_or, List.not_mem_nil,
      or_false, Anchor.point.injEq] at hmem
    obtain ⟨-, rfl⟩ | ⟨-, rfl⟩ | ⟨-, rfl⟩ | ⟨-, rfl⟩ | ⟨-, rfl⟩ := hmem
    · exact ⟨hx, hy⟩
    · exact ⟨hl, ht⟩
    · exact ⟨hr, ht⟩
    · exact ⟨hl, hb⟩
    · exact ⟨hr, hb⟩

theorem confines_circle_iff {cx cy r : Float}
    (has : Anchors.ofMembers id (circleAnchors cx cy r) = .ok as) :
    v.Confines as ↔
      (Within v.minX v.maxX (cx - r) ∧ Within v.minX v.maxX (cx + r) ∧ Within v.minX v.maxX cx) ∧
      (Within v.minY v.maxY (cy - r) ∧ Within v.minY v.maxY (cy + r) ∧
        Within v.minY v.maxY cy) := by
  cases has
  constructor
  · intro hc
    have hcenter := hc.points "center" _ rfl
    have hleft := hc.corners "left" (by decide) "top" (by decide) (cx - r) (cy - r) rfl rfl
    have hright := hc.corners "right" (by decide) "bottom" (by decide) (cx + r) (cy + r) rfl rfl
    exact ⟨⟨hleft.1, hright.1, hcenter.1⟩, hleft.2, hright.2, hcenter.2⟩
  · rintro ⟨⟨hl, hr, hx⟩, ht, hb, hy⟩
    refine ⟨fun name p hp => ?_, contains_corner rfl rfl rfl rfl ⟨hl, hr⟩ ⟨ht, hb⟩⟩
    have hmem := point_mem hp
    simp only [List.mem_cons, Prod.mk.injEq, reduceCtorEq, and_false, false_or, List.not_mem_nil,
      or_false, Anchor.point.injEq] at hmem
    obtain ⟨-, rfl⟩ := hmem
    exact ⟨hx, hy⟩

theorem confines_dot_iff {x y : Float} (has : Anchors.ofMembers id (dotAnchors x y) = .ok as) :
    v.Confines as ↔ Within v.minX v.maxX x ∧ Within v.minY v.maxY y := by
  cases has
  constructor
  · exact fun hc => hc.points "center" ⟨x, y⟩ rfl
  · intro h
    refine ⟨fun name p hp => ?_, ?_⟩
    · have hmem := point_mem hp
      simp only [List.mem_cons, Prod.mk.injEq, reduceCtorEq, and_false, false_or, List.not_mem_nil,
        or_false, Anchor.point.injEq] at hmem
      obtain ⟨-, rfl⟩ := hmem
      exact h
    · simp [Anchors.number?, Table.get?]

/-- The anchors of a line tell of its two ends and of the point in between. -/
theorem confines_line_iff {p q : Point}
    (has : Anchors.ofMembers id (lineAnchors p q) = .ok as) :
    v.Confines as ↔
      (Within v.minX v.maxX p.x ∧ Within v.minX v.maxX q.x ∧
        Within v.minX v.maxX ((p.x + q.x) / 2)) ∧
      (Within v.minY v.maxY p.y ∧ Within v.minY v.maxY q.y ∧
        Within v.minY v.maxY ((p.y + q.y) / 2)) := by
  cases has
  constructor
  · intro hc
    have hstart := hc.points "start" _ rfl
    have hend := hc.points "end" _ rfl
    have hmid := hc.points "midpoint" _ rfl
    exact ⟨⟨hstart.1, hend.1, hmid.1⟩, hstart.2, hend.2, hmid.2⟩
  · rintro ⟨⟨hpx, hqx, hmx⟩, hpy, hqy, hmy⟩
    refine ⟨fun name p hp => ?_, ?_⟩
    · have hmem := point_mem hp
      simp only [List.mem_cons, Prod.mk.injEq, reduceCtorEq, and_false, false_or, List.not_mem_nil,
        or_false, Anchor.point.injEq] at hmem
      obtain ⟨-, rfl⟩ | ⟨-, rfl⟩ | ⟨-, rfl⟩ := hmem
      · exact ⟨hpx, hpy⟩
      · exact ⟨hqx, hqy⟩
      · exact ⟨hmx, hmy⟩
    · simp [Anchors.number?, Table.get?]

/-! ## What is given -/

theorem isFinite_orZero {x : Option Float} (h : ∀ a, x = some a → a.isFinite) :
    (orZero x).isFinite := by
  cases x with
  | none => exact isFinite_zero
  | some a =>
    unfold orZero
    dsimp only
    split_ifs
    · exact isFinite_zero
    · exact h a rfl

theorem hasSum_sub {x y : Float} (hx : x.isFinite) (hy : y.isFinite) (z : Float) (hz : z.isFinite) :
    HasSum z (x - y) ∧ HasSum (x - y) z := by
  obtain h | h := isFinite_or_isInf (isNaN_of_rank_eq (rank_sub hx hy))
  · exact ⟨.inl ⟨hz, h⟩, .inl ⟨h, hz⟩⟩
  · exact ⟨.inr (.inl ⟨hz, h⟩), .inr (.inr ⟨h, hz⟩)⟩

/-- Finite data make an extent of which one part at most is infinite. -/
theorem hasSum_extent {start stop size : Option Float} (hstart : ∀ a, start = some a → a.isFinite)
    (hstop : ∀ a, stop = some a → a.isFinite) (hsize : ∀ a, size = some a → a.isFinite) :
    HasSum (extent start stop size).start (extent start stop size).size := by
  have hz := isFinite_zero
  cases start <;> cases stop <;> cases size <;> simp only [extent]
  · exact .inl ⟨hz, hz⟩
  · exact .inl ⟨hz, hsize _ rfl⟩
  · exact (hasSum_sub (hstop _ rfl) hz 0 hz).2
  · exact (hasSum_sub (hstop _ rfl) (hsize _ rfl) _ (hsize _ rfl)).2
  · exact .inl ⟨hstart _ rfl, hz⟩
  · exact .inl ⟨hstart _ rfl, hsize _ rfl⟩
  · exact (hasSum_sub (hstop _ rfl) (hstart _ rfl) _ (hstart _ rfl)).1
  · exact .inl ⟨hstart _ rfl, hsize _ rfl⟩

namespace Inputs

/-- Sizes that tell in which order the edges of a shape come. -/
def sizes : Inputs → Float × Float
  | rect left right width top bottom height _ =>
    ((extent left right width).size, (extent top bottom height).size)
  | circle _ _ r => (orZero r, orZero r)
  | _ => (0, 0)

/-- What a shape that is not warned of must satisfy so as to be within the view
    box: along each axis, its size is not negative, or else neither edge is
    beyond the limit that the other one is held against. For a line, it is the
    sum of the ends that must be finite, or else within the limits. -/
def Fits (v : ViewBox) : Inputs → Prop
  | line p q =>
    ((p.x + q.x).isFinite ∨ Within v.minX v.maxX (p.x + q.x)) ∧
    ((p.y + q.y).isFinite ∨ Within v.minY v.maxY (p.y + q.y))
  | i =>
    (0 ≤ i.sizes.1 ∨ i.bounds.left ≤ v.maxX ∧ v.minX ≤ i.bounds.right) ∧
    (0 ≤ i.sizes.2 ∨ i.bounds.top ≤ v.maxY ∧ v.minY ≤ i.bounds.bottom)

end Inputs

/-- No edge is warned of that is not beyond its limit. -/
theorem not_lt_of_silent {r r' : Registry} {placing : List String} {box : Bounds}
    (hd : r'.diagnostics = r.diagnostics ++
      (placing ++ Registry.outside box (some v)).map (⟨.warning, id, ·⟩))
    (h : Registry.Silent v r r') :
    ¬ box.left < v.minX ∧ ¬ box.top < v.minY ∧ ¬ v.maxX < box.right ∧ ¬ v.maxY < box.bottom := by
  rw [Registry.Silent, hd, List.drop_left] at h
  have hwarn : ∀ message ∈ Registry.outsideWarnings v box, ∀ edge, ¬ Edge.Warns v edge message :=
    fun message hm => h _ (List.mem_map_of_mem (List.mem_append_right _ hm))
  unfold Registry.outsideWarnings at hwarn
  refine ⟨fun hlt => ?_, fun hlt => ?_, fun hlt => ?_, fun hlt => ?_⟩
  · exact hwarn _ (by simp [hlt]) _ (.left hlt)
  · exact hwarn _ (by simp [hlt]) _ (.top hlt)
  · exact hwarn _ (by simp [hlt]) _ (.right hlt)
  · exact hwarn _ (by simp [hlt]) _ (.bottom hlt)

/-- Of a box that is not warned of, all that the shape publishes is within the
    view box exactly if the shape fits. -/
theorem confines_iff_fits {i : Inputs} (has : Anchors.ofMembers id i.anchors = .ok as)
    (hv : v.IsFinite) (hnum : ∀ x ∈ i.numbers, x.isFinite)
    (hbox : ¬ i.bounds.left < v.minX ∧ ¬ i.bounds.top < v.minY ∧ ¬ v.maxX < i.bounds.right ∧
      ¬ v.maxY < i.bounds.bottom) :
    v.Confines as ↔ i.Fits v := by
  obtain ⟨hminX, hminY, hwidth, hheight⟩ := hv
  have hmaxX := isNaN_of_rank_eq (rank_add hminX hwidth)
  have hmaxY := isNaN_of_rank_eq (rank_add hminY hheight)
  have hminX := isNaN_of_isFinite hminX
  have hminY := isNaN_of_isFinite hminY
  obtain ⟨hleft, htop, hright, hbottom⟩ := hbox
  -- A number that has been read is finite.
  have hgiven : ∀ l : List (Option Float), i.numbers = l.filterMap (fun x => x) →
      ∀ o ∈ l, ∀ a, o = some a → a.isFinite :=
    fun l hl o ho a ha => hnum a (hl ▸ List.mem_filterMap.2 ⟨o, ho, ha⟩)
  cases i with
  | rect left right width top bottom height rotation =>
    have hgiven := hgiven _ rfl
    simp only [List.forall_mem_cons] at hgiven
    obtain ⟨hl, hr, hw, ht, hb, hh, -⟩ := hgiven
    rw [confines_rect_iff has]
    exact and_congr ((reach_extent (hasSum_extent hl hr hw)).within_iff hminX hmaxX hleft hright)
      ((reach_extent (hasSum_extent ht hb hh)).within_iff hminY hmaxY htop hbottom)
  | circle cx cy r =>
    have hgiven := hgiven _ rfl
    simp only [List.forall_mem_cons] at hgiven
    obtain ⟨hx, hy, hr, -⟩ := hgiven
    have hr := isFinite_orZero hr
    rw [confines_circle_iff has]
    exact and_congr ((reach_radius (isFinite_orZero hx) hr).within_iff hminX hmaxX hleft hright)
      ((reach_radius (isFinite_orZero hy) hr).within_iff hminY hmaxY htop hbottom)
  | dot x y =>
    have hgiven := hgiven _ rfl
    simp only [List.forall_mem_cons] at hgiven
    obtain ⟨hx, hy, -⟩ := hgiven
    have hX := (reach_point (isFinite_orZero hx)).within_iff hminX hmaxX hleft hright
    have hY := (reach_point (isFinite_orZero hy)).within_iff hminY hmaxY htop hbottom
    rw [and_self_iff, and_self_iff] at hX hY
    rw [confines_dot_iff has]
    exact and_congr hX hY
  | line p q =>
    have hnum : ∀ x ∈ [p.x, p.y, q.x, q.y], x.isFinite := hnum
    simp only [List.forall_mem_cons] at hnum
    obtain ⟨hpx, hpy, hqx, hqy, -⟩ := hnum
    rw [confines_line_iff has]
    exact and_congr (within_ends_iff hpx hqx hminX hmaxX hleft hright)
      (within_ends_iff hpy hqy hminY hmaxY htop hbottom)

variable {kind : String} {run : Realizer} {props : Members} {s s' : Journaled Registry}
  {i : Inputs}

/-- A shape of one of the usual kinds that is made of finite numbers and is not
    turned, and of which no edge is warned, lies within the view box with all
    that it publishes exactly if it fits: always if its sizes are not negative,
    or for a line if the sums of its ends are finite. -/
theorem confines_iff_of_silent (hk : kinds.get? kind = some run) {out : Builder × Members}
    (h : run { id } props s = (.ok out, s')) (hbox : s.state.viewBox = some v) (hv : v.IsFinite)
    (hkind : i.kind = kind) (hread : i.Read s.state id props)
    (hnum : ∀ x ∈ i.numbers, x.isFinite) (hturned : isTurned i.rotation = false)
    (hsilent : Registry.Silent v s.state s'.state) :
    ∃ as, s'.state.anchorsOf id = .ok as ∧ (v.Confines as ↔ i.Fits v) := by
  obtain ⟨j, hj⟩ := exists_realized hk h
  obtain rfl := hj.eq_of_read hk (asKey_of_run hk h) hkind hread
  obtain ⟨as, has, has'⟩ := hj.anchors
  obtain ⟨placing, box, -, hb, hd⟩ := hj.diagnostics
  rw [hb hturned, hbox] at hd
  exact ⟨as, has', confines_iff_fits has hv hnum (not_lt_of_silent hd hsilent)⟩

/-- A rectangle of negative width that is within the view box all the same. -/
theorem confines_iff_of_silent_backwards :
    let props : Members := [("x", .int 50), ("width", .int (-20)), ("bottom", .int 9)]
    let v : ViewBox := ⟨0, 0, 100, 100⟩
    let i := Inputs.rect (some 50) none (some (-20)) none (some 9) none none
    let s : Journaled Registry := ⟨{ viewBox := some v }, {}⟩
    let t := rect { id := .text "a" } props s
    (∃ out, t = (.ok out, t.2)) ∧ v.IsFinite ∧ i.Read s.state (.text "a") props ∧
      (∀ x ∈ i.numbers, x.isFinite) ∧ isTurned i.rotation = false ∧
      Registry.Silent v s.state t.2.state ∧
      ∃ as, t.2.state.anchorsOf (.text "a") = .ok as ∧ v.Confines as := by
  intro props v i s t
  obtain ⟨out, hout⟩ := exists_eq_ok_of_isOk (x := t.1) (by decide +kernel)
  have ht : t = (.ok out, t.2) := Prod.ext hout rfl
  have hv : v.IsFinite := by unfold ViewBox.IsFinite; decide +kernel
  have hint : ∀ p ∈ ([(50, 50), (-20, -20), (9, 9)] : List (ℤ × Float)),
      Decimal.ofInt? p.1 = some p.2 := by decide +kernel
  simp only [List.forall_mem_cons] at hint
  have hread : i.Read s.state (.text "a") props :=
    ⟨⟨_, hint.2.1, rfl⟩, rfl, ⟨_, hint.1, rfl⟩, rfl, rfl, ⟨_, hint.2.2.1, rfl⟩, rfl⟩
  have hnum : ∀ x ∈ i.numbers, x.isFinite := by decide +kernel
  have hturned : isTurned i.rotation = false := by decide +kernel
  have hlen : t.2.state.diagnostics.length = 0 := by decide +kernel
  have hsilent : Registry.Silent v s.state t.2.state := by
    rw [Registry.Silent, List.length_eq_zero_iff.1 hlen]
    nofun
  obtain ⟨as, has, hiff⟩ :=
    confines_iff_of_silent (show kinds.get? "rect" = _ from rfl) ht rfl hv rfl hread hnum hturned
      hsilent
  refine ⟨⟨out, ht⟩, hv, hread, hnum, hturned, hsilent, as, has, hiff.2 ?_⟩
  exact ⟨.inr (by decide +kernel), .inl (by decide +kernel)⟩

/-- A rectangle of negative width that starts beyond the view box and ends in
    it. -/
theorem not_confines_backwards : ∃ out s' as,
    rect { id := .text "a" }
        [("x", .int 150), ("y", .int 10), ("width", .int (-100)), ("height", .int 20)]
        ⟨{ viewBox := some ⟨0, 0, 100, 100⟩ }, {}⟩ = (.ok out, s') ∧
      s'.state.diagnostics = [] ∧ s'.state.anchorsOf (.text "a") = .ok as ∧
      as.number? "left" = some 150 ∧ as.number? "top" = some 10 ∧
      ¬ ViewBox.Confines ⟨0, 0, 100, 100⟩ as := by
  have hlim : ¬ (150 : Float) ≤ ViewBox.maxX ⟨0, 0, 100, 100⟩ := by decide +kernel
  have hrun : (fun t : Except Failure (Builder × Members) × Journaled Registry =>
      (t.1.isOk, t.2.state.diagnostics.length,
        (t.2.state.anchorsOf (.text "a")).toOption.map fun as =>
          (as.number? "left", as.number? "top")))
      (rect { id := .text "a" }
        [("x", .int 150), ("y", .int 10), ("width", .int (-100)), ("height", .int 20)]
        ⟨{ viewBox := some ⟨0, 0, 100, 100⟩ }, {}⟩) = (true, 0, some (some 150, some 10)) := by
    decide +kernel
  generalize rect _ _ _ = t at hrun ⊢
  obtain ⟨_ | out, s'⟩ := t
  · cases congrArg Prod.fst hrun
  obtain ⟨hlen, hnumbers⟩ := Prod.mk.inj (Prod.mk.inj hrun).2
  dsimp only at hlen hnumbers
  cases has : s'.state.anchorsOf (.text "a") with
  | error =>
    rw [has] at hnumbers
    cases hnumbers
  | ok as =>
    rw [has] at hnumbers
    obtain ⟨hleft, htop⟩ := Prod.mk.inj (Option.some.inj hnumbers)
    refine ⟨out, s', as, rfl, List.length_eq_zero_iff.1 hlen, has, hleft, htop, fun h => hlim ?_⟩
    exact (h.corners "left" (by decide) "top" (by decide) 150 10 hleft htop).1.2

end Shape

end AnchorLayout
