import VertexPlacement.Proofs.Requests

namespace VertexPlacement

variable {α : Type}

inductive Collection where
  | ask (r : Request)
  | stack

def Cell.collection (dim : Nat) : List Collection := (requests dim).map .ask ++ [.stack]

namespace Entity

inductive Fails (e : Entity α) (dim : Nat) : Collection → Fault α → Prop
  | refused {r f} (refuses : e.Refuses r f) : Fails e dim (.ask r) f
  | uneven (uneven : ¬ e.Even dim) : Fails e dim .stack .badValue

variable {e : Entity α} {dim : Nat} {smooth : Bool} {f : Fault α}

@[simp] theorem fails_ask {r : Request} : e.Fails dim (.ask r) f ↔ e.Refuses r f :=
  ⟨fun h => by cases h; assumption, .refused⟩

@[simp] theorem fails_stack : e.Fails dim .stack f ↔ ¬ e.Even dim ∧ f = .badValue := by
  constructor
  · intro h
    cases h
    exact ⟨‹_›, rfl⟩
  · rintro ⟨h, rfl⟩
    exact .uneven h

section WellFormed

def Consults (e : Entity α) (dim : Nat) (side : Side) (l : Entity α) : Prop :=
  ∃ i < Cell.sideCount dim side, (e.parts side.part)[i]? = some l

/-- An entity with enough parts, whose sides can all give samples, and samples of one length. -/
structure WellFormed (e : Entity α) (dim : Nat) : Prop where
  corners : 2 ^ dim ≤ e.vertices.length
  sides : ∀ side, Cell.sideCount dim side ≤ (e.parts side.part).length
  refined : ∀ side l c rest, e.Consults dim side l → l.children = c :: rest →
    side.vertexCount ≤ c.vertices.length
  unrefined : ∀ side l, e.Consults dim side l → l.children = [] → SameShape l.vertices
  even : e.Even dim

theorem wellFormed_iff :
    e.WellFormed dim ↔ ∀ s ∈ Cell.collection dim, ∀ f, ¬ e.Fails dim s f := by
  constructor
  · intro h s hs f hf
    cases hf with
    | uneven uneven => exact uneven h.even
    | @refused r f refuses =>
      have hr : r ∈ Cell.requests dim := by simpa [Cell.collection] using hs
      cases refuses with
      | noCorner missing =>
        exact absurd (Cell.corner_mem_requests.mp hr) (Nat.not_lt.mpr (h.corners.trans missing))
      | noSide missing =>
        exact absurd (Cell.side_mem_requests.mp hr) (Nat.not_lt.mpr ((h.sides _).trans missing))
      | badSide part refuses =>
        have hl : e.Consults dim _ _ := ⟨_, Cell.side_mem_requests.mp hr, part⟩
        cases refuses with
        | shortChild refined short =>
          exact absurd (h.refined _ _ _ _ hl refined) (Nat.not_le.mpr short)
        | unevenVertices unrefined uneven => exact uneven (h.unrefined _ _ hl unrefined)
  · intro h
    have hask (r : Request) (hr : r ∈ Cell.requests dim) (f : Fault α) : ¬ e.Refuses r f :=
      fun hf => h (.ask r) (by simp [Cell.collection, hr]) f (.refused hf)
    have hside (side : Side) (l : Entity α) (hl : e.Consults dim side l) (f : Fault α) :
        ¬ side.Refuses l f := by
      obtain ⟨i, hi, part⟩ := hl
      exact fun hf => hask _ (Cell.side_mem_requests.mpr hi) f (.badSide part hf)
    refine ⟨?_, ?_, ?_, ?_, ?_⟩
    · by_contra hlt
      exact hask _ (Cell.corner_mem_requests.mpr (Nat.not_le.mp hlt)) _ (.noCorner le_rfl)
    · intro side
      by_contra hlt
      exact hask _ (Cell.side_mem_requests.mpr (Nat.not_le.mp hlt)) _ (.noSide le_rfl)
    · intro side l c rest hl hc
      by_contra hlt
      exact hside side l hl _ (.shortChild hc (Nat.not_le.mp hlt))
    · intro side l hl hc
      by_contra huneven
      exact hside side l hl _ (.unevenVertices hc huneven)
    · by_contra huneven
      exact h .stack (by simp [Cell.collection]) _ (.uneven huneven)

end WellFormed

section Answers

variable [Scalar α]

theorem even_iff_of_answers {rows : List (List α)}
    (h : (Cell.requests dim).mapM e.answer = .ok rows) :
    e.Even dim ↔ ∃ d, ∀ row ∈ rows, row.length = d := by
  refine exists_congr fun d => ?_
  replace h := mapM_eq_ok_iff.mp h
  generalize Cell.requests dim = rs at h
  induction h with
  | nil => simp
  | cons hrow _ ih =>
    rw [List.forall_mem_cons, List.forall_mem_cons, size?_of_answer hrow]
    exact and_congr (by simp) ih

theorem ofRows_of_not_even {rows : List (List α)}
    (h : (Cell.requests dim).mapM e.answer = .ok rows) (he : ¬ e.Even dim) (ws : List α) :
    Quadrature.ofRows rows ws = .error .badValue :=
  Quadrature.ofRows_of_uneven (mt (even_iff_of_answers h).mpr he)

theorem answers_eq_error_iff : (Cell.requests dim).mapM e.answer = .error f ↔
    FirstFailure ((Cell.requests dim).map .ask) (e.Fails dim) f := by
  rw [mapM_eq_error_iff, firstFailure_map]
  exact firstFailure_congr fun r _ g => answer_eq_error_iff.trans fails_ask.symm

theorem exists_weighing_of_answers (hb : Cell.Balanced α) (hdim : dim ∈ Cell.supportedDims)
    {rows : List (List α)} (h : (Cell.requests dim).mapM e.answer = .ok rows)
    (he : e.Even dim) (smooth : Bool) :
    ∃ (d : Nat) (points : List (Vector α d)), rows = points.map Vector.toList ∧
      ∃ hw : Quadrature.Weighing points (Cell.sampleWeights dim smooth),
        e.defaultQuadrature dim smooth = .ok hw.quadrature := by
  obtain ⟨d, hd⟩ := (even_iff_of_answers h).mp he
  have hlen := (Quadrature.length_of_mapM_ok h).trans (Cell.length_requests hdim)
  have hpos := Cell.sampleCount_pos dim
  have hweights := (Cell.length_sampleWeights (α := α) hdim smooth).trans hlen.symm
  obtain ⟨points, hpoints, hw, hrows⟩ := Quadrature.exists_weighing
    (List.ne_nil_of_length_pos (by omega)) hd hweights (hb dim smooth)
  exact ⟨d, points, hpoints, hw, by rw [defaultQuadrature_eq hdim, h, ok_bind, hrows]⟩

theorem defaultQuadrature_eq_error_iff (hb : Cell.Balanced α) (hdim : dim ∈ Cell.supportedDims) :
    e.defaultQuadrature dim smooth = .error f ↔
      FirstFailure (Cell.collection dim) (e.Fails dim) f := by
  -- Stacking is the last step: it is reached when every request is met, and then only uneven
  -- samples make it fail, as the weights always partition one.
  have hstack : (∃ rows, (Cell.requests dim).mapM e.answer = .ok rows ∧
      Quadrature.ofRows rows (Cell.sampleWeights dim smooth) = .error f) ↔
      (∀ s ∈ (Cell.requests dim).map Collection.ask, ∀ g, ¬ e.Fails dim s g) ∧
        ¬ e.Even dim ∧ f = .badValue := by
    rw [← exists_eq_ok_iff fun _ => answers_eq_error_iff]
    constructor
    · rintro ⟨rows, hrows, hf⟩
      by_cases he : e.Even dim
      · obtain ⟨d, points, -, hw, hok⟩ := exists_weighing_of_answers hb hdim hrows he smooth
        rw [defaultQuadrature_eq hdim, hrows, ok_bind, hf] at hok
        cases hok
      · rw [ofRows_of_not_even hrows he] at hf
        cases hf
        exact ⟨⟨rows, hrows⟩, he, rfl⟩
    · rintro ⟨⟨rows, hrows⟩, he, rfl⟩
      exact ⟨rows, hrows, ofRows_of_not_even hrows he _⟩
  rw [defaultQuadrature_eq hdim, bind_eq_error_iff_or, answers_eq_error_iff, hstack,
    Cell.collection, firstFailure_append, firstFailure_cons, fails_stack]
  simp

end Answers

end Entity

section Surplus

/-- A side with nothing but what its sample is taken from. The center of a side that has not been
refined is taken from all its vertices. -/
def Side.trimmed (side : Side) (l : Entity α) : Entity α :=
  match l.children with
  | [] => .bare l.vertices
  | c :: _ => ⟨[], [], [], [.bare (c.vertices.take side.vertexCount)]⟩

/-- An entity with nothing but what its default quadrature is taken from. -/
def Entity.trimmed (e : Entity α) (dim : Nat) : Entity α where
  vertices := e.vertices.take (2 ^ dim)
  lines := (e.lines.take (Cell.sideCount dim .line)).map Side.line.trimmed
  faces := (e.faces.take (Cell.sideCount dim .face)).map Side.face.trimmed
  children := []

theorem Entity.parts_trimmed (e : Entity α) (dim : Nat) (side : Side) :
    (e.trimmed dim).parts side.part =
      ((e.parts side.part).take (Cell.sideCount dim side)).map side.trimmed := by
  cases side <;> rfl

variable [Scalar α]

theorem Side.sample_trimmed (side : Side) (l : Entity α) :
    side.sample (side.trimmed l) = side.sample l := by
  rw [trimmed]
  cases hc : l.children with
  | nil =>
    rw [sample_of_children_eq_nil side hc, sample_of_children_eq_nil side rfl]
    exact congrArg (· >>= _) (Entity.center_congr rfl)
  | cons c rest =>
    have hlt : side.middleCorner < side.vertexCount := by rw [vertexCount_eq]; omega
    rw [sample_of_children_eq_cons side hc, sample_of_children_eq_cons side rfl, Entity.vertex,
      Entity.vertex, Entity.bare, Entity.item, Entity.item, List.getElem?_take_of_lt hlt]

namespace Entity

variable {e : Entity α} {dim : Nat}

theorem answer_trimmed {r : Request} (hr : r ∈ Cell.requests dim) :
    (e.trimmed dim).answer r = e.answer r := by
  cases r with
  | corner i =>
    have hi : i < 2 ^ dim := Cell.corner_mem_requests.mp hr
    rw [answer, answer, corner, corner, vertex, vertex, item, item, trimmed,
      List.getElem?_take_of_lt hi]
  | side side i =>
    have hi := Cell.side_mem_requests.mp hr
    rw [answer, answer, item, item, parts_trimmed, List.getElem?_map, List.getElem?_take_of_lt hi]
    cases (e.parts side.part)[i]? with
    | none => rfl
    | some l => exact side.sample_trimmed l

theorem defaultQuadrature_trimmed (hdim : dim ∈ Cell.supportedDims) (smooth : Bool) :
    (e.trimmed dim).defaultQuadrature dim smooth = e.defaultQuadrature dim smooth := by
  rw [defaultQuadrature_eq hdim, defaultQuadrature_eq hdim,
    mapM_congr fun r hr => answer_trimmed (e := e) hr]

end Entity

end Surplus

namespace Entity

section Outcome

variable [Scalar α]

structure Collected (e : Entity α) (dim : Nat) (smooth : Bool) : Prop where
  found_iff : (∃ q, e.defaultQuadrature dim smooth = .ok q) ↔ e.WellFormed dim
  error_iff : ∀ f, e.defaultQuadrature dim smooth = .error f ↔
    FirstFailure (Cell.collection dim) (e.Fails dim) f
  error_cases : ∀ f, e.defaultQuadrature dim smooth = .error f → f = .badIndex ∨ f = .badValue
  found : ∀ q, e.defaultQuadrature dim smooth = .ok q →
    q.size = Cell.sampleCount dim ∧ q.weights = Cell.sampleWeights dim smooth ∧
      q.validate Quadrature.weightSumTolerance = .ok () ∧
      (Cell.requests dim).mapM e.answer = .ok (q.samples.map fun s => s.point.toList)
  surplus : (e.trimmed dim).defaultQuadrature dim smooth = e.defaultQuadrature dim smooth

variable {e : Entity α} {dim : Nat} {f : Fault α}

theorem collected_of_balanced (hb : Cell.Balanced α) (hdim : dim ∈ Cell.supportedDims)
    (smooth : Bool) : e.Collected dim smooth := by
  have herror (f : Fault α) : e.defaultQuadrature dim smooth = .error f ↔
      FirstFailure (Cell.collection dim) (e.Fails dim) f := defaultQuadrature_eq_error_iff hb hdim
  refine ⟨?_, herror, ?_, ?_, defaultQuadrature_trimmed hdim smooth⟩
  · rw [wellFormed_iff, exists_eq_ok_iff herror]
  · intro f hf
    obtain ⟨s, -, hs⟩ := ((herror f).mp hf).exists_fails
    cases hs with
    | refused refuses => exact refuses.cases_fault
    | uneven => exact .inr rfl
  · intro q hq
    rw [defaultQuadrature_eq hdim] at hq
    obtain ⟨rows, hrows, hof⟩ := bind_eq_ok_iff.mp hq
    have he : e.Even dim := by
      by_contra he
      rw [ofRows_of_not_even hrows he] at hof
      cases hof
    obtain ⟨d, points, rfl, hw, hok⟩ := exists_weighing_of_answers hb hdim hrows he smooth
    rw [defaultQuadrature_eq hdim, hrows, ok_bind, hof] at hok
    cases hok
    have hpoints : hw.quadrature.samples.map Sample.point = points :=
      Quadrature.map_point_zipWith hw.length_eq
    have hweights : hw.quadrature.weights = Cell.sampleWeights dim smooth :=
      Quadrature.map_weight_zipWith hw.length_eq
    have hsize : hw.quadrature.weights.length = hw.quadrature.size := List.length_map _
    refine ⟨?_, hweights, hw.validate_quadrature, hrows.trans (congrArg Except.ok ?_)⟩
    · rw [← hsize, hweights, Cell.length_sampleWeights hdim]
    · exact (congrArg (List.map Vector.toList) hpoints.symm).trans List.map_map

end Outcome

/-- A default quadrature is found of the well-formed entities and of no others, in exact and in
machine arithmetic. -/
theorem defaultQuadrature_collected :
    (∀ (e : Entity ℚ) (dim : Nat), dim ∈ Cell.supportedDims → ∀ smooth, e.Collected dim smooth) ∧
    ∀ (e : Entity Float) (dim : Nat), dim ∈ Cell.supportedDims →
      ∀ smooth, e.Collected dim smooth :=
  ⟨fun _ _ hdim smooth => collected_of_balanced Cell.balanced_rat hdim smooth,
    fun _ _ hdim smooth => collected_of_balanced Cell.balanced_float hdim smooth⟩

/-- The first line gives a vertex of its child, and the second one has no center. The third one has
a child without vertices, a fourth one is missing, and there is a vertex too many. -/
def ragged : Entity Float where
  vertices := [.ofList [0, 0], .ofList [1, 0], .ofList [0, 1], .ofList [1, 1], .ofList [7]]
  lines := [⟨[], [], [], [.bare [.ofList [0, 0], .ofList [0, 0.5]]]⟩,
    .bare [.ofList [1, 0], .ofList [1]], ⟨[], [], [], [.bare []]⟩]
  faces := []
  children := []

theorem defaultQuadrature_collected_ragged :
    2 ∈ Cell.supportedDims ∧ ragged.defaultQuadrature 2 true = .error .badValue ∧
      (ragged.trimmed 2).defaultQuadrature 2 true = .error .badValue ∧ ¬ ragged.WellFormed 2 := by
  have hdim : 2 ∈ Cell.supportedDims := by decide
  have h := defaultQuadrature_collected.2 ragged 2 hdim true
  have hfirst : FirstFailure (Cell.collection 2) (ragged.Fails 2) .badValue := by
    refine ⟨[.ask (.corner 0), .ask (.corner 1), .ask (.corner 2), .ask (.corner 3),
      .ask (.side .line 0)], .ask (.side .line 1),
      [.ask (.side .line 2), .ask (.side .line 3), .stack], rfl, ?_, ?_⟩
    · simp only [List.forall_mem_cons, fails_ask, ← answer_eq_error_iff]
      exact ⟨nofun, nofun, nofun, nofun, nofun, by simp⟩
    · refine .refused (.badSide rfl (.unevenVertices rfl ?_))
      change ¬ SameShape [Tensor.ofList [1, 0], Tensor.ofList [1]]
      rw [sameShape_cons]
      decide
  have herror := (h.error_iff .badValue).mpr hfirst
  refine ⟨hdim, herror, h.surplus.trans herror, fun hw => ?_⟩
  obtain ⟨q, hq⟩ := h.found_iff.mpr hw
  cases herror.symm.trans hq

end Entity

end VertexPlacement
