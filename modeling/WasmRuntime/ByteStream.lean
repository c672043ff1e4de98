/-
Blocking byte streams: `std::io::Read` as its callers see it.

A reader is a source of bytes, finite or endless, a position in it, and a schedule of what its next
`read` calls do: deliver at most so many bytes, or fail. When the schedule runs out the reader
delivers whatever is asked for. Every behaviour of a reader that ends is one of these, since a run
makes finitely many calls; the schedule says how the bytes are cut into pieces and the source says
which bytes they are.
-/
import WasmRuntime.Exec

set_option autoImplicit false

namespace WasmRuntime.ByteStream

/-- Where the bytes come from. -/
inductive Source where
  | finite (bytes : Bytes)
  | endless (byte : ℕ → UInt8)

/-- The next bytes of a source from a position on, at most `n` of them. -/
def Source.window : Source → ℕ → ℕ → Bytes
  | .finite bytes, pos, n => (bytes.drop pos).take n
  | .endless byte, pos, n => (List.range n).map fun i => byte (pos + i)

/-- `std::io::Error`, as far as its kind is looked at. -/
inductive ReadError where
  | interrupted
  | unexpectedEof
  | other (message : String)
  deriving DecidableEq, Repr

/-- What one `read` call does: deliver up to `k + 1` bytes, or fail. -/
inductive ReadEvent where
  | chunk (k : ℕ)
  | error (e : ReadError)
  deriving DecidableEq, Repr

/-- A reader. -/
structure Reader where
  source : Source
  pos : ℕ
  schedule : List ReadEvent

/-- `Read::read` into a buffer of `n` bytes. -/
def Reader.read (r : Reader) (n : ℕ) : Except ReadError Bytes × Reader :=
  match r.schedule with
  | [] =>
    let bytes := r.source.window r.pos n
    (.ok bytes, { r with pos := r.pos + bytes.length })
  | .chunk k :: rest =>
    let bytes := r.source.window r.pos (min n (k + 1))
    (.ok bytes, { r with pos := r.pos + bytes.length, schedule := rest })
  | .error e :: rest => (.error e, { r with schedule := rest })

/-- The loop of `Read::read_exact`: `n` bytes are missing and `acc` has been read. -/
def Reader.read_exact_loop : ℕ → Reader → ℕ → Bytes → Exec ReadError Bytes × Reader
  | 0, r, _, _ => (.div, r)
  | fuel + 1, r, n, acc =>
    if n = 0 then (.ok acc, r)
    else
      match r.read n with
      | (.ok [], r) => (.err .unexpectedEof, r)
      | (.ok (b :: bs), r) => read_exact_loop fuel r (n - (bs.length + 1)) (acc ++ (b :: bs))
      | (.error .interrupted, r) => read_exact_loop fuel r n acc
      | (.error e, r) => (.err e, r)

/-- `Read::read_exact`. A call either uses up an event of the schedule or, past its
end, delivers all that is missing or all that there is. -/
def Reader.read_exact (r : Reader) (n : ℕ) : Exec ReadError Bytes × Reader :=
  r.read_exact_loop (r.schedule.length + 2) n []

/-- The schedule fails with nothing but `Interrupted`. -/
def Reader.Clean (r : Reader) : Prop := ∀ e, ReadEvent.error e ∈ r.schedule → e = .interrupted

/-! ## Windows

What a source has next, at most so many bytes of it. A read delivers a window, and windows put
together are windows. -/

theorem Source.window_length_le (s : Source) (pos n : ℕ) : (s.window pos n).length ≤ n := by
  cases s with
  | finite bytes => exact List.length_take_le n _
  | endless byte => simp [Source.window]

theorem Source.window_zero (s : Source) (pos : ℕ) : s.window pos 0 = [] := by
  cases s with
  | finite bytes => simp [Source.window]
  | endless byte => simp [Source.window]

/-- A full window is the start of every longer one. -/
theorem Source.window_add {s : Source} {pos m : ℕ} (n : ℕ)
    (h : (s.window pos m).length = m) :
    s.window pos (m + n) = s.window pos m ++ s.window (pos + m) n := by
  cases s with
  | finite bytes =>
    simp only [Source.window] at h ⊢
    rw [List.take_add, List.drop_drop]
  | endless byte =>
    simp only [Source.window]
    rw [List.range_add, List.map_append, List.map_map]
    simp only [Function.comp_def, Nat.add_assoc]

/-- A short window is all that is left: a longer one has no more. -/
theorem Source.window_short {s : Source} {pos m : ℕ} (n : ℕ)
    (h : (s.window pos m).length < m) :
    s.window pos (m + n) = s.window pos m ∧
      s.window (pos + (s.window pos m).length) n = [] := by
  cases s with
  | finite bytes =>
    simp only [Source.window, List.length_take, List.length_drop] at h ⊢
    refine ⟨?_, ?_⟩
    · rw [List.take_of_length_le (by rw [List.length_drop]; omega),
        List.take_of_length_le (by rw [List.length_drop]; omega)]
    · rw [List.drop_eq_nil_of_le (by omega), List.take_nil]
  | endless byte => simp [Source.window] at h

/-- An empty window of positive width is the end of the source. -/
theorem Source.window_eq_nil {s : Source} {pos m : ℕ} (hm : 0 < m)
    (h : s.window pos m = []) (n : ℕ) : s.window pos n = [] := by
  cases s with
  | finite bytes =>
    simp only [Source.window, List.take_eq_nil_iff, List.drop_eq_nil_iff] at h ⊢
    omega
  | endless byte =>
    simp only [Source.window, List.map_eq_nil_iff, List.range_eq_nil] at h
    omega

/-- Whatever a read of width `w` delivers, the rest of the window follows it. -/
theorem Source.window_step {s : Source} {pos w n : ℕ} (hw : w ≤ n) :
    s.window pos n = s.window pos w
      ++ s.window (pos + (s.window pos w).length) (n - (s.window pos w).length) := by
  have hle := s.window_length_le pos w
  have hsplit : w + (n - w) = n := by omega
  by_cases hfull : (s.window pos w).length = w
  · have hadd := Source.window_add (n - w) hfull
    rw [hsplit] at hadd
    rw [hfull]
    exact hadd
  · obtain ⟨hsame, -⟩ := Source.window_short (n - w) (show (s.window pos w).length < w by omega)
    obtain ⟨-, hend⟩ := Source.window_short (n - (s.window pos w).length)
      (show (s.window pos w).length < w by omega)
    rw [hend, List.append_nil, ← hsame, hsplit]

/-! ## `read_exact`

`read_exact` is the default method of the trait. For a schedule that fails only with `Interrupted`
its result is a function of the source alone (`read_exact_clean`): the cutting does not show. -/

/-- What `read_exact` answers, given the window of the width it was asked for. -/
def exactly (n : ℕ) (acc window : Bytes) : Exec ReadError Bytes :=
  if window.length = n then .ok (acc ++ window) else .err .unexpectedEof

/-- The result of a clean run: the answer depends on the source only, and the
position has moved over the bytes delivered. -/
def Settles (r : Reader) (n : ℕ) (acc : Bytes) (res : Exec ReadError Bytes × Reader) : Prop :=
  res.1 = exactly n acc (r.source.window r.pos n) ∧ res.2.source = r.source ∧
    res.2.pos = r.pos + (r.source.window r.pos n).length ∧ res.2.Clean

/-- Delivering a piece and settling for the rest is settling for the whole. -/
theorem Settles.of_piece {r : Reader} (r' : Reader) (w : ℕ) {n : ℕ} {acc : Bytes}
    {res : Exec ReadError Bytes × Reader} (hw : w ≤ n) (hsource : r'.source = r.source)
    (hpos : r'.pos = r.pos + (r.source.window r.pos w).length)
    (h : Settles r' (n - (r.source.window r.pos w).length)
      (acc ++ r.source.window r.pos w) res) : Settles r n acc res := by
  obtain ⟨h1, h2, h3, h4⟩ := h
  have hle := r.source.window_length_le r.pos w
  rw [hsource, hpos] at h1 h3
  have hstep := @Source.window_step r.source r.pos w n hw
  refine ⟨?_, h2.trans hsource, ?_, h4⟩
  · rw [h1, exactly, exactly, hstep, List.length_append, List.append_assoc]
    by_cases hfull : (r.source.window (r.pos + (r.source.window r.pos w).length)
        (n - (r.source.window r.pos w).length)).length = n - (r.source.window r.pos w).length
    · rw [if_pos hfull, if_pos (by omega)]
    · rw [if_neg hfull, if_neg (by omega)]
  · rw [h3, hstep, List.length_append]
    omega

/-- Nothing missing: the loop has settled. -/
theorem Settles.zero {r : Reader} {acc : Bytes} (hclean : r.Clean) :
    Settles r 0 acc (.ok acc, r) := by
  refine ⟨?_, rfl, ?_, hclean⟩
  · rw [r.source.window_zero, exactly, List.append_nil]
    rfl
  · rw [r.source.window_zero]
    rfl

/-- Nothing left in the source: the loop has settled on the end of the file. -/
theorem Settles.eof {r r' : Reader} {w n : ℕ} {acc : Bytes} (hw : 0 < w) (hn : 0 < n)
    (hnil : r.source.window r.pos w = []) (hsource : r'.source = r.source)
    (hpos : r'.pos = r.pos) (hclean : r'.Clean) :
    Settles r n acc (.err .unexpectedEof, r') := by
  have hwindow := Source.window_eq_nil hw hnil n
  refine ⟨?_, hsource, ?_, hclean⟩
  · rw [hwindow, exactly, if_neg (by simp only [List.length_nil]; omega)]
  · rw [hwindow, hpos]
    rfl

/-- Past the end of the schedule one call fetches what is missing, or what there is
and a second call finds the end. -/
theorem read_exact_loop_unscheduled (fuel : ℕ) (s : Source) (pos n : ℕ) (acc : Bytes) :
    Settles ⟨s, pos, []⟩ n acc (Reader.read_exact_loop (fuel + 2) ⟨s, pos, []⟩ n acc) := by
  have hclean : ∀ q, Reader.Clean ⟨s, q, []⟩ := fun q e he => absurd he (by simp)
  rw [Reader.read_exact_loop]
  by_cases hn : n = 0
  · subst hn
    rw [if_pos rfl]
    exact Settles.zero (hclean pos)
  rw [if_neg hn, Reader.read]
  dsimp only
  cases hbs : s.window pos n with
  | nil => exact Settles.eof (by omega) (by omega) hbs rfl rfl (hclean _)
  | cons b bs =>
    have hlen : (s.window pos n).length = bs.length + 1 := by rw [hbs, List.length_cons]
    refine Settles.of_piece ⟨s, pos + (bs.length + 1), []⟩ n le_rfl rfl ?_ ?_
    · rw [hlen]
    dsimp only
    rw [hlen, hbs, Reader.read_exact_loop]
    by_cases hrest : n - (bs.length + 1) = 0
    · rw [if_pos hrest, hrest]
      exact Settles.zero (hclean _)
    · -- The first call was short, so the second finds nothing.
      obtain ⟨-, hend⟩ := Source.window_short (n - (bs.length + 1))
        (show (s.window pos n).length < n by omega)
      rw [hlen] at hend
      rw [if_neg hrest, Reader.read]
      dsimp only [List.length_cons]
      rw [hend]
      exact Settles.eof (Nat.pos_of_ne_zero hrest) (by omega) hend rfl rfl (hclean _)

/-- The loop settles on every clean schedule. -/
theorem read_exact_loop_clean (s : Source) (schedule : List ReadEvent) :
    ∀ (fuel pos n : ℕ) (acc : Bytes), schedule.length + 2 ≤ fuel →
      (∀ e, ReadEvent.error e ∈ schedule → e = .interrupted) →
      Settles ⟨s, pos, schedule⟩ n acc
        (Reader.read_exact_loop fuel ⟨s, pos, schedule⟩ n acc) := by
  induction schedule with
  | nil =>
    intro fuel pos n acc hfuel _
    obtain ⟨fuel, rfl⟩ : ∃ k, fuel = k + 2 := ⟨fuel - 2, by simp at hfuel; omega⟩
    exact read_exact_loop_unscheduled fuel s pos n acc
  | cons event rest ih =>
    intro fuel pos n acc hfuel hclean
    obtain ⟨fuel, rfl⟩ : ∃ k, fuel = k + 1 := ⟨fuel - 1, by simp at hfuel; omega⟩
    have hfuel' : rest.length + 2 ≤ fuel := by
      rw [List.length_cons] at hfuel
      omega
    have hrest : ∀ e, ReadEvent.error e ∈ rest → e = .interrupted :=
      fun e he => hclean e (List.mem_cons_of_mem _ he)
    rw [Reader.read_exact_loop]
    by_cases hn : n = 0
    · subst hn
      rw [if_pos rfl]
      exact Settles.zero hclean
    rw [if_neg hn, Reader.read]
    -- One event of the schedule: a piece of the stream, or an interruption that is tried again.
    cases event with
    | chunk k =>
      dsimp only
      cases hbs : s.window pos (min n (k + 1)) with
      | nil => exact Settles.eof (by omega) (by omega) hbs rfl rfl hrest
      | cons b bs =>
        refine Settles.of_piece ⟨s, pos + (b :: bs).length, rest⟩ (min n (k + 1))
          (by omega) rfl ?_ ?_
        · dsimp only
          rw [hbs]
        · dsimp only
          rw [hbs]
          exact ih fuel _ _ _ hfuel' hrest
    | error e =>
      have he : e = .interrupted := hclean e List.mem_cons_self
      subst he
      exact ih fuel pos n acc hfuel' hrest

/-- For a clean schedule the answer of `read_exact` is a function of the source. -/
theorem read_exact_clean {r : Reader} (n : ℕ) (hclean : r.Clean) :
    Settles r n [] (r.read_exact n) :=
  read_exact_loop_clean r.source r.schedule _ r.pos n [] le_rfl hclean

/-- The result of a run on any schedule: an error, or the bytes of the source that were asked for,
all of them. -/
def Delivers (r : Reader) (n : ℕ) (acc : Bytes) (res : Exec ReadError Bytes × Reader) : Prop :=
  res.1.Fails ∨
    (r.source.window r.pos n).length = n ∧ res.1 = .ok (acc ++ r.source.window r.pos n) ∧
      res.2.source = r.source ∧ res.2.pos = r.pos + n

theorem Settles.delivers {r : Reader} {n : ℕ} {acc : Bytes} {res : Exec ReadError Bytes × Reader}
    (h : Settles r n acc res) : Delivers r n acc res := by
  obtain ⟨hres, hsource, hpos, -⟩ := h
  by_cases hfull : (r.source.window r.pos n).length = n
  · rw [exactly, if_pos hfull] at hres
    rw [hfull] at hpos
    exact Or.inr ⟨hfull, hres, hsource, hpos⟩
  · rw [exactly, if_neg hfull] at hres
    exact Or.inl ⟨_, hres⟩

/-- Delivering a piece and then the rest is delivering the whole. -/
theorem Delivers.of_piece {r : Reader} (r' : Reader) (w : ℕ) {n : ℕ} {acc : Bytes}
    {res : Exec ReadError Bytes × Reader} (hw : w ≤ n) (hsource : r'.source = r.source)
    (hpos : r'.pos = r.pos + (r.source.window r.pos w).length)
    (h : Delivers r' (n - (r.source.window r.pos w).length)
      (acc ++ r.source.window r.pos w) res) : Delivers r n acc res := by
  rcases h with hfails | ⟨hfull, hres, hs, hp⟩
  · exact Or.inl hfails
  · have hle := r.source.window_length_le r.pos w
    have hstep := @Source.window_step r.source r.pos w n hw
    rw [hsource, hpos] at hfull hres
    refine Or.inr ⟨?_, ?_, hs.trans hsource, ?_⟩
    · rw [hstep, List.length_append, hfull]
      omega
    · rw [hres, List.append_assoc, ← hstep]
    · rw [hp, hpos]
      omega

theorem Delivers.zero {r : Reader} {acc : Bytes} : Delivers r 0 acc (.ok acc, r) := by
  refine Or.inr ⟨?_, ?_, rfl, rfl⟩
  · rw [r.source.window_zero]
    rfl
  · rw [r.source.window_zero, List.append_nil]

/-- By induction on the fuel, whatever the schedule. -/
theorem read_exact_loop_delivers (s : Source) (schedule : List ReadEvent) :
    ∀ (fuel pos n : ℕ) (acc : Bytes), schedule.length + 2 ≤ fuel →
      Delivers ⟨s, pos, schedule⟩ n acc
        (Reader.read_exact_loop fuel ⟨s, pos, schedule⟩ n acc) := by
  induction schedule with
  | nil =>
    intro fuel pos n acc hfuel
    obtain ⟨fuel, rfl⟩ : ∃ k, fuel = k + 2 := ⟨fuel - 2, by simp at hfuel; omega⟩
    exact (read_exact_loop_unscheduled fuel s pos n acc).delivers
  | cons event rest ih =>
    intro fuel pos n acc hfuel
    obtain ⟨fuel, rfl⟩ : ∃ k, fuel = k + 1 := ⟨fuel - 1, by simp at hfuel; omega⟩
    have hfuel' : rest.length + 2 ≤ fuel := by
      rw [List.length_cons] at hfuel
      omega
    rw [Reader.read_exact_loop]
    by_cases hn : n = 0
    · subst hn
      rw [if_pos rfl]
      exact Delivers.zero
    rw [if_neg hn, Reader.read]
    cases event with
    | chunk k =>
      dsimp only
      cases hbs : s.window pos (min n (k + 1)) with
      | nil => exact Or.inl ⟨_, rfl⟩
      | cons b bs =>
        refine Delivers.of_piece ⟨s, pos + (b :: bs).length, rest⟩ (min n (k + 1))
          (by omega) rfl ?_ ?_
        · dsimp only
          rw [hbs]
        · dsimp only
          rw [hbs]
          exact ih fuel _ _ _ hfuel'
    | error e =>
      cases e with
      | interrupted => exact ih fuel pos n acc hfuel'
      | unexpectedEof => exact Or.inl ⟨_, rfl⟩
      | other message => exact Or.inl ⟨_, rfl⟩

/-- Whatever the schedule, `read_exact` fails or delivers. -/
theorem read_exact_delivers (r : Reader) (n : ℕ) : Delivers r n [] (r.read_exact n) :=
  read_exact_loop_delivers r.source r.schedule _ r.pos n [] le_rfl

/-- What `read_exact` returns is as long as it was asked to be. -/
theorem read_exact_length {r : Reader} {n : ℕ} {bytes : Bytes}
    (h : (r.read_exact n).1 = .ok bytes) : bytes.length = n := by
  rcases read_exact_delivers r n with ⟨e, hfails⟩ | ⟨hfull, hres, -⟩
  · rw [hfails] at h
    cases h
  · rw [hres, List.nil_append] at h
    rw [← Exec.ok.inj h, hfull]

/-! ## How much is taken

For every schedule `read_exact` takes no more from the source than was asked for, and so does any
computation made of such reads (`Takes`, below). -/

/-- A call that fails takes nothing, and one that succeeds takes what it delivers. -/
theorem read_pos (r : Reader) (n : ℕ) :
    (∀ e, (r.read n).1 = .error e → (r.read n).2.pos = r.pos) ∧
      ∀ bytes, (r.read n).1 = .ok bytes →
        (r.read n).2.pos = r.pos + bytes.length ∧ bytes.length ≤ n := by
  obtain ⟨s, pos, schedule⟩ := r
  cases schedule with
  | nil =>
    have hle := s.window_length_le pos n
    simp only [Reader.read, Except.ok.injEq]
    refine ⟨nofun, ?_⟩
    rintro bytes rfl
    exact ⟨rfl, hle⟩
  | cons event rest =>
    cases event with
    | chunk k =>
      have hle := s.window_length_le pos (min n (k + 1))
      simp only [Reader.read, Except.ok.injEq]
      refine ⟨nofun, ?_⟩
      rintro bytes rfl
      exact ⟨rfl, by omega⟩
    | error e => simp [Reader.read]

/-- No more is taken than was asked for. -/
theorem read_exact_loop_pos_le (fuel : ℕ) : ∀ (r : Reader) (n : ℕ) (acc : Bytes),
    (r.read_exact_loop fuel n acc).2.pos ≤ r.pos + n := by
  induction fuel with
  | zero =>
    intro r n acc
    exact Nat.le_add_right _ _
  | succ fuel ih =>
    intro r n acc
    obtain ⟨herr, hok⟩ := read_pos r n
    rw [Reader.read_exact_loop]
    by_cases hn : n = 0
    · rw [if_pos hn]
      exact Nat.le_add_right _ _
    rw [if_neg hn]
    rcases hread : r.read n with ⟨result, r'⟩
    rw [hread] at herr hok
    match result with
    | .ok [] =>
      have hpos := (hok [] rfl).1
      dsimp only [List.length_nil] at hpos ⊢
      omega
    | .ok (b :: bs) =>
      obtain ⟨hpos, hlen⟩ := hok (b :: bs) rfl
      have hrest := ih r' (n - (bs.length + 1)) (acc ++ (b :: bs))
      rw [List.length_cons] at hpos hlen
      dsimp only at hpos ⊢
      omega
    | .error .interrupted =>
      have hpos : r'.pos = r.pos := herr _ rfl
      have hrest := ih r' n acc
      rwa [hpos] at hrest
    | .error .unexpectedEof => exact (herr _ rfl).le.trans (Nat.le_add_right _ _)
    | .error (.other _) => exact (herr _ rfl).le.trans (Nat.le_add_right _ _)

/-- Whatever the schedule, `read_exact` takes no more than it was asked for. -/
theorem read_exact_pos_le (r : Reader) (n : ℕ) : (r.read_exact n).2.pos ≤ r.pos + n :=
  read_exact_loop_pos_le _ r n []

/-! ## Computations that read

The reader goes from step to step whether they succeed or not, so the monad is over it and not over
the bytes. -/

/-- A fallible computation over a reader. The reader comes back whatever happens: a
failed computation has still taken its bytes. -/
def ReadM (ε α : Type) : Type := Reader → Exec ε α × Reader

namespace ReadM

variable {ε α β : Type}

/-- Sequencing: only a value continues. -/
def bind (x : ReadM ε α) (f : α → ReadM ε β) : ReadM ε β := fun r =>
  match x r with
  | (.ok a, r) => f a r
  | (.err e, r) => (.err e, r)
  | (.panic, r) => (.panic, r)
  | (.div, r) => (.div, r)

instance : Monad (ReadM ε) where
  pure a := fun r => (.ok a, r)
  bind := ReadM.bind

/-- A computation that does not read. -/
def lift (x : Exec ε α) : ReadM ε α := fun r => (x, r)

theorem bind_of_ok {x : ReadM ε α} {f : α → ReadM ε β} {r r' : Reader} {a : α}
    (h : x r = (.ok a, r')) : (x >>= f) r = f a r' := by
  show ReadM.bind x f r = f a r'
  rw [ReadM.bind, h]

theorem lift_bind_of_ok {x : Exec ε α} {f : α → ReadM ε β} {r : Reader} {a : α}
    (h : x = .ok a) : (lift x >>= f) r = f a r := bind_of_ok (by rw [lift, h])

theorem bind_assoc {γ : Type} (x : ReadM ε α) (f : α → ReadM ε β) (g : β → ReadM ε γ) :
    x >>= f >>= g = x >>= fun a => f a >>= g := by
  funext r
  show ReadM.bind (ReadM.bind x f) g r = ReadM.bind x (fun a => ReadM.bind (f a) g) r
  unfold ReadM.bind
  rcases x r with ⟨result, r'⟩
  cases result with
  | ok v => rfl
  | err e => rfl
  | panic => rfl
  | div => rfl

/-- A sequence fails when its first step returns and the second fails from wherever that leads. -/
theorem fails_bind {x : ReadM ε α} {f : α → ReadM ε β} {r : Reader} (hx : (x r).1.Returns)
    (hf : ∀ a r', x r = (.ok a, r') → (f a r').1.Fails) : ((x >>= f) r).1.Fails := by
  show (ReadM.bind x f r).1.Fails
  unfold ReadM.bind
  rcases hrun : x r with ⟨result, r'⟩
  rw [hrun] at hx
  cases result with
  | ok a => exact hf a r' hrun
  | err e => exact ⟨e, rfl⟩
  | panic => exact absurd rfl hx.1
  | div => exact absurd rfl hx.2

theorem fails_lift_bind {x : Exec ε α} {f : α → ReadM ε β} {r : Reader} (hx : x.Returns)
    (hf : ∀ a, x = .ok a → (f a r).1.Fails) : ((lift x >>= f) r).1.Fails := by
  refine fails_bind hx fun a r' hrun => ?_
  obtain ⟨hvalue, rfl⟩ := Prod.mk.inj hrun
  exact hf a hvalue

/-- A sequence returned a value exactly when both of its steps did. -/
theorem bind_eq_ok {x : ReadM ε α} {f : α → ReadM ε β} {r : Reader} {b : β} :
    ((x >>= f) r).1 = .ok b ↔ ∃ a r', x r = (.ok a, r') ∧ (f a r').1 = .ok b := by
  show (ReadM.bind x f r).1 = .ok b ↔ _
  unfold ReadM.bind
  rcases x r with ⟨result, r'⟩
  cases result with
  | ok a => simp
  | err e => exact ⟨nofun, nofun⟩
  | panic => exact ⟨nofun, nofun⟩
  | div => exact ⟨nofun, nofun⟩

theorem lift_bind_eq_ok {x : Exec ε α} {f : α → ReadM ε β} {r : Reader} {b : β} :
    ((lift x >>= f) r).1 = .ok b ↔ ∃ a, x = .ok a ∧ (f a r).1 = .ok b := by
  rw [bind_eq_ok]
  constructor
  · rintro ⟨a, r', h, hf⟩
    obtain ⟨rfl, rfl⟩ := Prod.mk.inj h
    exact ⟨a, rfl, hf⟩
  · rintro ⟨a, rfl, hf⟩
    exact ⟨a, r, rfl, hf⟩

/-- The computation takes at most `n` bytes from any reader. -/
def Takes (n : ℕ) (x : ReadM ε α) : Prop := ∀ r, (x r).2.pos ≤ r.pos + n

theorem takes_lift (x : Exec ε α) : Takes 0 (lift x) := fun _ => le_rfl

theorem takes_pure (a : α) : Takes 0 (pure a : ReadM ε α) := fun _ => le_rfl

theorem takes_mono {m n : ℕ} {x : ReadM ε α} (h : Takes m x) (hmn : m ≤ n) : Takes n x :=
  fun r => (h r).trans (Nat.add_le_add_left hmn _)

/-- A sequence takes what its steps take; the second may assume how the first ended. -/
theorem takes_bind {m n : ℕ} {x : ReadM ε α} {f : α → ReadM ε β} (hx : Takes m x)
    (hf : ∀ a r, (x r).1 = .ok a → Takes n (f a)) : Takes (m + n) (x >>= f) := by
  intro r
  have hr := hx r
  have hnext := fun a => hf a r
  show (ReadM.bind x f r).2.pos ≤ r.pos + (m + n)
  unfold ReadM.bind
  rcases hxr : x r with ⟨result, r'⟩
  rw [hxr] at hr hnext
  cases result with
  | ok a =>
    have hrest := hnext a rfl r'
    dsimp only at hr ⊢
    omega
  | err e => exact hr.trans (by omega)
  | panic => exact hr.trans (by omega)
  | div => exact hr.trans (by omega)

/-- `takes_bind` for a step that does not read. -/
theorem takes_lift_bind {n : ℕ} {x : Exec ε α} {f : α → ReadM ε β}
    (hf : ∀ a, x = .ok a → Takes n (f a)) : Takes n (lift x >>= f) := by
  have h := takes_bind (n := n) (takes_lift x) (fun a _ ha => hf a ha)
  rwa [Nat.zero_add] at h

end ReadM

end WasmRuntime.ByteStream
