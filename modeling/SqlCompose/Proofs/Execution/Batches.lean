import Mathlib.Data.List.Forall2
import SqlCompose.Execution

/-! Running a batch. The rows are cut into groups, the groups are run in their order, and the
first group with a failed row is the last that is run. What a server was sent is told by a server
that does the same and writes it down. Of running the members of one group together only its order
is known. -/

namespace SqlCompose

section

variable {α : Type} (size : Nat)

theorem flatten_chunks (xs : List α) : (chunks size xs).flatten = xs := by
  induction xs using chunks.induct size with
  | case1 => simp [chunks]
  | case2 x xs ih => rw [chunks, List.flatten_cons, ih, List.cons_append, List.take_append_drop]

theorem ne_nil_of_mem_chunks {xs c : List α} (h : c ∈ chunks size xs) : c ≠ [] := by
  induction xs using chunks.induct size with
  | case1 => simp [chunks] at h
  | case2 x xs ih =>
    rw [chunks, List.mem_cons] at h
    rcases h with rfl | h
    · exact List.cons_ne_nil _ _
    · exact ih h

variable {size}

theorem length_le_of_mem_chunks (hsize : 1 ≤ size) {xs c : List α} (h : c ∈ chunks size xs) :
    c.length ≤ size := by
  induction xs using chunks.induct size with
  | case1 => simp [chunks] at h
  | case2 x xs ih =>
    rw [chunks, List.mem_cons] at h
    rcases h with rfl | h
    · have htake := List.length_take_le (size - 1) xs
      rw [List.length_cons]
      omega
    · exact ih h

theorem length_of_mem_dropLast_chunks (hsize : 1 ≤ size) {xs c : List α}
    (h : c ∈ (chunks size xs).dropLast) : c.length = size := by
  induction xs using chunks.induct size with
  | case1 => simp [chunks] at h
  | case2 x xs ih =>
    rw [chunks] at h
    cases hrest : xs.drop (size - 1) with
    | nil => simp [hrest, chunks] at h
    | cons y ys =>
      have hne : chunks size (xs.drop (size - 1)) ≠ [] := by simp [hrest, chunks]
      rw [List.dropLast_cons_of_ne_nil hne, List.mem_cons] at h
      rcases h with rfl | h
      · have hlength : 0 < (xs.drop (size - 1)).length := by simp [hrest]
        rw [List.length_drop] at hlength
        rw [List.length_cons, List.length_take]
        omega
      · exact ih h

end

/-- Members of a group run one after the other: their outcomes, known at once or later. -/
def Task.inTurn {σ : Type} : List (Task σ) → σ → List (Except Error UInt64) × σ
  | [], s => ([], s)
  | task :: tasks, s =>
    let (outcome, s) := task s
    let (outcomes, s) := inTurn tasks s
    (outcome.bind id :: outcomes, s)

theorem Task.inTurn_cons {σ : Type} {task : Task σ} {s s₁ : σ}
    {outcome : Except Error (Except Error UInt64)} (h : task s = (outcome, s₁))
    (tasks : List (Task σ)) :
    inTurn (task :: tasks) s = (outcome.bind id :: (inTurn tasks s₁).1, (inTurn tasks s₁).2) := by
  simp only [inTurn, h]

theorem mapM_id_map_ok (counts : List UInt64) :
    (counts.map Except.ok).mapM id = (.ok counts : Except Error (List UInt64)) := by
  induction counts with
  | nil => rfl
  | cons count counts ih => rw [List.map_cons, List.mapM_cons, ih]; rfl

theorem eq_map_ok_or_mapM_id (results : List (Except Error UInt64)) :
    (∃ counts : List UInt64, results = counts.map .ok) ∨
      ∃ e, .error e ∈ results ∧ results.mapM id = .error e := by
  induction results with
  | nil => exact .inl ⟨[], rfl⟩
  | cons result results ih =>
    cases result with
    | error e => exact .inr ⟨e, List.mem_cons_self, by rw [List.mapM_cons]; rfl⟩
    | ok count =>
      rcases ih with ⟨counts, rfl⟩ | ⟨e, he, hmap⟩
      · exact .inl ⟨count :: counts, rfl⟩
      · exact .inr ⟨e, List.mem_cons_of_mem _ he, by rw [List.mapM_cons, hmap]; rfl⟩

theorem error_not_mem_map_ok (counts : List UInt64) (e : Error) :
    (.error e : Except Error UInt64) ∉ counts.map .ok := by
  simp

/-- A group from its members. Those that are started run in their order, and each once. If the
group succeeds, all were started and succeeded, and the counts are theirs in the same order. If it
fails, it is with the error of a member that was started. -/
inductive Joins {σ : Type} (tasks : List (Task σ)) (s : σ) :
    Except Error (List UInt64) × σ → Prop where
  | ok {counts : List UInt64} (hall : (Task.inTurn tasks s).1 = counts.map .ok) :
      Joins tasks s (.ok counts, (Task.inTurn tasks s).2)
  | error {started : List (Task σ)} {e : Error} (hstarted : started <+: tasks)
      (he : .error e ∈ (Task.inTurn started s).1) :
      Joins tasks s (.error e, (Task.inTurn started s).2)

namespace Joiner

/-- Members are started in their order, run in that order, and answered for in that order. -/
def InOrder (join : Joiner) : Prop :=
  ∀ {σ : Type} (tasks : List (Task σ)) (s : σ), Joins tasks s (join.run tasks s)

/-- Either all members are started, or the last of those that are fails at once. -/
theorem start_eq {σ : Type} (tasks : List (Task σ)) (s : σ) :
    start tasks s = (.ok (Task.inTurn tasks s).1, (Task.inTurn tasks s).2) ∨
      ∃ started e, started <+: tasks ∧ .error e ∈ (Task.inTurn started s).1 ∧
        start tasks s = (.error e, (Task.inTurn started s).2) := by
  induction tasks generalizing s with
  | nil => exact .inl rfl
  | cons task tasks ih =>
    cases htask : task s with
    | mk outcome s₁ =>
      cases outcome with
      | error e =>
        refine .inr ⟨[task], e, List.cons_prefix_cons.mpr ⟨rfl, List.nil_prefix⟩, ?_, ?_⟩
        · rw [Task.inTurn_cons htask]
          exact List.mem_cons_self
        · rw [Task.inTurn_cons htask, start, htask]
          rfl
      | ok outcome =>
        have hstart : start (task :: tasks) s =
            ((start tasks s₁).1.map (outcome :: ·), (start tasks s₁).2) := by
          simp only [start, htask]
        rcases ih s₁ with hrest | ⟨started, e, hprefix, he, hrest⟩
        · left
          rw [hstart, hrest, Task.inTurn_cons htask]
          rfl
        · refine .inr ⟨task :: started, e, List.cons_prefix_cons.mpr ⟨rfl, hprefix⟩, ?_, ?_⟩
          · rw [Task.inTurn_cons htask]
            exact List.mem_cons_of_mem _ he
          · rw [hstart, hrest, Task.inTurn_cons htask]
            rfl

theorem prompt_inOrder : prompt.InOrder := by
  intro σ tasks s
  rcases start_eq tasks s with hstart | ⟨started, e, hprefix, he, hstart⟩
  · have hrun : prompt.run tasks s =
        ((Task.inTurn tasks s).1.mapM id, (Task.inTurn tasks s).2) := by
      simp only [prompt, hstart, Except.bind]
    rw [hrun]
    rcases eq_map_ok_or_mapM_id (Task.inTurn tasks s).1 with ⟨counts, hall⟩ | ⟨e, he, hmap⟩
    · rw [hall, mapM_id_map_ok]
      exact .ok hall
    · rw [hmap]
      exact .error List.prefix_rfl he
  · have hrun : prompt.run tasks s = (.error e, (Task.inTurn started s).2) := by
      simp only [prompt, hstart, Except.bind]
    rw [hrun]
    exact .error hprefix he

end Joiner

namespace Server

variable {σ : Type}

/-- The server with a record of what it is sent to run. -/
def recording (server : Server σ) : Server (σ × List (List WireForm)) where
  prepare s sql := ((server.prepare s.1 sql).1, ((server.prepare s.1 sql).2, s.2))
  run s forms := ((server.run s.1 forms).1, ((server.run s.1 forms).2, s.2 ++ [forms]))
  join := server.join

/-- What a server answers to rows that are run one after the other, what it is sent for them, and
where that leaves it. A row without a binary form fails without being sent. -/
inductive Answers (server : Server σ) :
    σ → List (List Bound) → List (Except Error UInt64) → List (List WireForm) → σ → Prop where
  | nil (s : σ) : Answers server s [] [] [] s
  | sent {s s₁ s₂ : σ} {row : List Bound} {rows : List (List Bound)} {forms : List WireForm}
      {reply : Reply} {results : List (Except Error UInt64)} {sent : List (List WireForm)}
      (hforms : row.mapM Bound.wire = .ok forms) (hrun : server.run s forms = (reply, s₁))
      (rest : Answers server s₁ rows results sent s₂) :
      Answers server s (row :: rows) (affected (.ok reply) :: results) (forms :: sent) s₂
  | unsent {s s₁ : σ} {row : List Bound} {rows : List (List Bound)} {e : Error}
      {results : List (Except Error UInt64)} {sent : List (List WireForm)}
      (hforms : row.mapM Bound.wire = .error e) (rest : Answers server s rows results sent s₁) :
      Answers server s (row :: rows) (.error e :: results) sent s₁

namespace Answers

variable {server : Server σ} {s s' : σ} {rows : List (List Bound)}
  {results : List (Except Error UInt64)} {sent : List (List WireForm)}

theorem exists_answers (server : Server σ) (s : σ) (rows : List (List Bound)) :
    ∃ results sent s', server.Answers s rows results sent s' := by
  induction rows generalizing s with
  | nil => exact ⟨[], [], s, .nil s⟩
  | cons row rows ih =>
    cases hforms : row.mapM Bound.wire with
    | error e =>
      obtain ⟨results, sent, s', h⟩ := ih s
      exact ⟨_, _, s', .unsent hforms h⟩
    | ok forms =>
      obtain ⟨results, sent, s', h⟩ := ih (server.run s forms).2
      exact ⟨_, _, s', .sent hforms rfl h⟩

theorem length_eq (h : server.Answers s rows results sent s') : results.length = rows.length := by
  induction h with
  | nil => rfl
  | sent _ _ _ ih => rw [List.length_cons, List.length_cons, ih]
  | unsent _ _ ih => rw [List.length_cons, List.length_cons, ih]

theorem forall_sent (h : server.Answers s rows results sent s') (hok : ∀ e, .error e ∉ results) :
    List.Forall₂ (fun row forms => row.mapM Bound.wire = .ok forms) rows sent := by
  induction h with
  | nil => exact .nil
  | sent hforms _ _ ih => exact .cons hforms (ih fun e he => hok e (List.mem_cons_of_mem _ he))
  | unsent => exact absurd List.mem_cons_self (hok _)

theorem split {more : List (List Bound)} (h : server.Answers s (rows ++ more) results sent s') :
    ∃ results₁ results₂ sent₁ sent₂ s₁, results = results₁ ++ results₂ ∧ sent = sent₁ ++ sent₂ ∧
      server.Answers s rows results₁ sent₁ s₁ ∧ server.Answers s₁ more results₂ sent₂ s' := by
  induction rows generalizing s results sent with
  | nil => exact ⟨[], results, [], sent, s, rfl, rfl, .nil s, h⟩
  | cons row rows ih =>
    cases h with
    | sent hforms hrun rest =>
      obtain ⟨results₁, results₂, sent₁, sent₂, s₁, rfl, rfl, h₁, h₂⟩ := ih rest
      exact ⟨_, results₂, _, sent₂, s₁, rfl, rfl, .sent hforms hrun h₁, h₂⟩
    | unsent hforms rest =>
      obtain ⟨results₁, results₂, sent₁, sent₂, s₁, rfl, rfl, h₁, h₂⟩ := ih rest
      exact ⟨_, results₂, sent₁, sent₂, s₁, rfl, rfl, .unsent hforms h₁, h₂⟩

theorem append {more : List (List Bound)} {s₁ : σ} {results' : List (Except Error UInt64)}
    {sent' : List (List WireForm)} (h : server.Answers s rows results sent s₁)
    (h' : server.Answers s₁ more results' sent' s') :
    server.Answers s (rows ++ more) (results ++ results') (sent ++ sent') s' := by
  induction h with
  | nil => exact h'
  | sent hforms hrun _ ih => exact .sent hforms hrun (ih h')
  | unsent hforms _ ih => exact .unsent hforms (ih h')

theorem inTurn_recording (h : server.Answers s rows results sent s')
    (log : List (List WireForm)) :
    Task.inTurn (rows.map server.recording.task) (s, log) = (results, (s', log ++ sent)) := by
  induction h generalizing log with
  | nil => simp [Task.inTurn]
  | @sent s s₁ _ row _ forms reply _ _ hforms hrun _ ih =>
    have htask : server.recording.task row (s, log) =
        (.ok (affected (.ok reply)), (s₁, log ++ [forms])) := by
      simp only [task, runOnce, hforms, recording, hrun]
      rfl
    rw [List.map_cons, Task.inTurn_cons htask, ih, List.append_assoc]
    rfl
  | @unsent s _ row _ e _ _ hforms _ ih =>
    have htask : server.recording.task row (s, log) = (.error e, (s, log)) := by
      simp only [task, runOnce, hforms]
      rfl
    rw [List.map_cons, Task.inTurn_cons htask, ih]
    rfl

/-- A group that is joined in order: either no row of it fails, or the error is one of the rows
that were started. -/
theorem join_recording (hjoin : server.join.InOrder) (h : server.Answers s rows results sent s')
    (log : List (List WireForm)) :
    (∃ counts : List UInt64, results = counts.map .ok ∧
      server.recording.join.run (rows.map server.recording.task) (s, log) =
        (.ok counts, (s', log ++ sent))) ∨
    ∃ started unsent e known sent₁ s₁, rows = started ++ unsent ∧ .error e ∈ results ∧
      server.Answers s started known sent₁ s₁ ∧ .error e ∈ known ∧
      server.recording.join.run (rows.map server.recording.task) (s, log) =
        (.error e, (s₁, log ++ sent₁)) := by
  have hjoins : Joins (rows.map server.recording.task) (s, log)
    (server.recording.join.run (rows.map server.recording.task) (s, log)) := hjoin _ _
  generalize server.recording.join.run (rows.map server.recording.task) (s, log) = run at hjoins ⊢
  cases hjoins with
  | ok hall =>
    rw [h.inTurn_recording log] at hall ⊢
    exact .inl ⟨_, hall, rfl⟩
  | @error tasks e hstarted he =>
    obtain ⟨left, hleft⟩ := hstarted
    obtain ⟨started, unsent, rfl, rfl, -⟩ := List.map_eq_append_iff.mp hleft.symm
    obtain ⟨known, later, sent₁, sent₂, s₁, rfl, rfl, hbefore, -⟩ := h.split
    rw [hbefore.inTurn_recording log] at he ⊢
    exact .inr ⟨started, unsent, e, known, sent₁, s₁, rfl, List.mem_append_left _ he, hbefore, he,
      rfl⟩

end Answers

/-- The groups are run in their order as far as the first that has a failed row. Of that group rows
were started up to some point, and `e` is the error of one of them. -/
def FailsWith (server : Server σ) (s : σ) (groups : List (List (List Bound))) (e : Error)
    (sent : List (List WireForm)) (s' : σ) : Prop :=
  ∃ (earlier : List (List (List Bound))) (started unsent : List (List Bound))
    (later : List (List (List Bound))) (counts : List UInt64)
    (results : List (Except Error UInt64)) (sent₁ sent₂ : List (List WireForm)) (s₁ : σ),
    groups = earlier ++ (started ++ unsent) :: later ∧ sent = sent₁ ++ sent₂ ∧
    server.Answers s earlier.flatten (counts.map .ok) sent₁ s₁ ∧
    List.Forall₂ (fun row forms => row.mapM Bound.wire = .ok forms) earlier.flatten sent₁ ∧
    server.Answers s₁ started results sent₂ s' ∧ .error e ∈ results

/-- A group without a failed row is run before the others. -/
theorem runGroups_cons {server : Server σ} {s s₁ : σ} {group : List (List Bound)}
    {counts : List UInt64} (h : server.join.run (group.map server.task) s = (.ok counts, s₁))
    (groups : List (List (List Bound))) :
    server.runGroups s (group :: groups) =
      ((server.runGroups s₁ groups).1.map (counts.map AffectedCount.rows ++ ·),
        (server.runGroups s₁ groups).2) := by
  simp only [runGroups, h]

theorem FailsWith.cons {server : Server σ} {s s₁ s₂ : σ} {group : List (List Bound)}
    {groups : List (List (List Bound))} {counts : List UInt64} {e : Error}
    {sent sent' : List (List WireForm)}
    (hgroup : server.Answers s group (counts.map .ok) sent s₁)
    (h : server.FailsWith s₁ groups e sent' s₂) :
    server.FailsWith s (group :: groups) e (sent ++ sent') s₂ := by
  obtain ⟨earlier, started, unsent, later, known, results, before, last, s₃, rfl, rfl, hbefore,
    hsent, hlast, he⟩ := h
  refine ⟨group :: earlier, started, unsent, later, counts ++ known, results, sent ++ before, last,
    s₃, rfl, by rw [List.append_assoc], ?_, ?_, hlast, he⟩
  · rw [List.flatten_cons, List.map_append]
    exact hgroup.append hbefore
  · rw [List.flatten_cons]
    exact List.rel_append (hgroup.forall_sent (error_not_mem_map_ok counts)) hsent

/-- What running the groups gives depends on whether any row of them fails. -/
theorem runGroups_recording {server : Server σ} (hjoin : server.join.InOrder)
    {groups : List (List (List Bound))} {s s' : σ} {results : List (Except Error UInt64)}
    {sent : List (List WireForm)} (h : server.Answers s groups.flatten results sent s')
    (log : List (List WireForm)) :
    (∃ counts : List UInt64, results = counts.map .ok ∧
      server.recording.runGroups (s, log) groups =
        (.ok (counts.map .rows), (s', log ++ sent))) ∨
    ∃ e sent₁ s₁, .error e ∈ results ∧ server.FailsWith s groups e sent₁ s₁ ∧
      server.recording.runGroups (s, log) groups = (.error e, (s₁, log ++ sent₁)) := by
  induction groups generalizing s results sent log with
  | nil =>
    cases h
    exact .inl ⟨[], rfl, by simp [runGroups]⟩
  | cons group groups ih =>
    rw [List.flatten_cons] at h
    obtain ⟨results₁, results₂, sent₁, sent₂, s₁, rfl, rfl, hgroup, hrest⟩ := h.split
    rcases hgroup.join_recording hjoin log with
      ⟨counts, rfl, hrun⟩ | ⟨started, unsent, e, known, sent', s', rfl, he, hstarted, hknown, hrun⟩
    · have hcons := runGroups_cons hrun groups
      rcases ih hrest (log ++ sent₁) with
        ⟨counts₂, rfl, hgroups⟩ | ⟨e, sent', s₂, he, hfails, hgroups⟩
      · -- no group has a failed row
        refine .inl ⟨counts ++ counts₂, by rw [List.map_append], ?_⟩
        rw [hcons, hgroups, Except.map, List.map_append, List.append_assoc]
      · -- this group joins those before the one with a failed row
        refine .inr ⟨e, sent₁ ++ sent', s₂, List.mem_append_right _ he, hfails.cons hgroup, ?_⟩
        rw [hcons, hgroups, Except.map, List.append_assoc]
    · -- a row of this group fails, and the groups after it are not run
      refine .inr ⟨e, sent', s', List.mem_append_left _ he, ?_, ?_⟩
      · exact ⟨[], started, unsent, groups, [], known, [], sent', s, rfl, rfl, .nil s, .nil, hstarted,
          hknown⟩
      · simp only [runGroups, hrun]

section

variable (server : Server σ)

/-- Writing down what is sent changes nothing else. -/
theorem runOnce_eq_recording (t : σ × List (List WireForm)) (row : List Bound) :
    server.runOnce t.1 row =
      ((server.recording.runOnce t row).1, (server.recording.runOnce t row).2.1) := by
  unfold runOnce
  cases row.mapM Bound.wire <;> rfl

theorem join_eq_recording (t : σ × List (List WireForm)) (group : List (List Bound)) :
    server.join.run (group.map server.task) t.1 =
      ((server.recording.join.run (group.map server.recording.task) t).1,
        (server.recording.join.run (group.map server.recording.task) t).2.1) := by
  refine server.join.uniform Prod.fst group server.recording.task server.task (fun row t => ?_) t
  simp only [task, runOnce_eq_recording server t row]

theorem runGroups_eq_recording (t : σ × List (List WireForm))
    (groups : List (List (List Bound))) :
    server.runGroups t.1 groups =
      ((server.recording.runGroups t groups).1, (server.recording.runGroups t groups).2.1) := by
  induction groups generalizing t with
  | nil => rfl
  | cons group groups ih =>
    simp only [runGroups, join_eq_recording server t group]
    cases server.recording.join.run (group.map server.recording.task) t with
    | mk counts t₁ =>
      cases counts with
      | error e => rfl
      | ok counts => simp only [ih]

theorem prepare_recording {s s₁ : σ} {sql : String} {answer : Except ServerError Unit}
    (h : server.prepare s sql = (answer, s₁)) (log : List (List WireForm)) :
    server.recording.prepare (s, log) sql = (answer, (s₁, log)) := by
  simp only [recording, h]

variable {batch : BatchStatement}

theorem executeBatch_refused {s s₁ : σ} {e : ServerError} (hrows : batch.rows ≠ [])
    (hprepare : server.prepare s batch.sql = (.error e, s₁)) :
    server.executeBatch s batch =
      ⟨.error e.error, [.executing "execute_batch" batch.sql batch.rows.length], s₁⟩ := by
  simp only [executeBatch, List.isEmpty_iff, hrows, if_false, hprepare]

theorem executeBatch_prepared {s s₁ : σ} (hrows : batch.rows ≠ [])
    (hprepare : server.prepare s batch.sql = (.ok (), s₁)) :
    server.executeBatch s batch =
      ⟨(server.runGroups s₁ batch.chunks).1,
        [.executing "execute_batch" batch.sql batch.rows.length],
        (server.runGroups s₁ batch.chunks).2⟩ := by
  simp only [executeBatch, List.isEmpty_iff, hrows, if_false, hprepare]

theorem executeBatch_eq_recording (t : σ × List (List WireForm)) (batch : BatchStatement) :
    server.executeBatch t.1 batch =
      ⟨(server.recording.executeBatch t batch).result,
        (server.recording.executeBatch t batch).events,
        (server.recording.executeBatch t batch).state.1⟩ := by
  by_cases hrows : batch.rows = []
  · simp only [executeBatch, hrows, List.isEmpty_nil, if_true]
  · cases hprepare : server.prepare t.1 batch.sql with
    | mk answer s₁ =>
      have hrecord := prepare_recording server hprepare t.2
      cases answer with
      | error e =>
        rw [executeBatch_refused server hrows hprepare,
          executeBatch_refused server.recording hrows hrecord]
      | ok _ =>
        rw [executeBatch_prepared server hrows hprepare,
          executeBatch_prepared server.recording hrows hrecord,
          runGroups_eq_recording server (s₁, t.2)]

end

/-- A batch of any rows and any size, run by any server that runs the members of a group in order.
The groups are the rows in their order, none is empty, and all but the last have the size, which is
at least one. Without rows the server is not asked for anything. Once it has taken the text, either
no row fails and the counts are its counts, row by row, or some row fails and the error is one of
the first group with such a row: all earlier groups were sent as a whole, and nothing of a later one
is sent. -/
theorem executeBatch_of (server : Server σ) (hjoin : server.join.InOrder) (s : σ) (log : List (List WireForm)) (sql : String)
    (rows : List (List Bound)) (size : Nat) :
    let batch := BatchStatement.of sql rows size
    let run := server.recording.executeBatch (s, log) batch
    (batch.chunks.flatten = rows ∧ (∀ c ∈ batch.chunks, c ≠ [] ∧ c.length ≤ max size 1) ∧
      ∀ c ∈ batch.chunks.dropLast, c.length = max size 1) ∧
    server.executeBatch s batch = ⟨run.result, run.events, run.state.1⟩ ∧
    (rows = [] → run.result = .ok [] ∧ run.state = (s, log)) ∧
    (∀ e s₁, rows ≠ [] → server.prepare s sql = (.error e, s₁) →
      run.result = .error e.error ∧ run.state = (s₁, log)) ∧
    ∀ s₁, rows ≠ [] → server.prepare s sql = (.ok (), s₁) →
      ∃ results sent s₂, server.Answers s₁ rows results sent s₂ ∧
        ((∀ e, .error e ∉ results) →
          List.Forall₂ (fun row forms => row.mapM Bound.wire = .ok forms) rows sent ∧
          ∃ counts : List UInt64, counts.length = rows.length ∧ results = counts.map .ok ∧
            run.result = .ok (counts.map .rows) ∧ run.state = (s₂, log ++ sent)) ∧
        ((∃ e, .error e ∈ results) → ∃ e sent₁ s₃, server.FailsWith s₁ batch.chunks e sent₁ s₃ ∧
          run.result = .error e ∧ run.state = (s₃, log ++ sent₁)) := by
  intro batch run
  have hsize : 1 ≤ max size 1 := Nat.le_max_right size 1
  have hflatten : batch.chunks.flatten = rows := flatten_chunks (max size 1) rows
  refine ⟨⟨hflatten, fun c hc => ?_, fun c hc => ?_⟩, executeBatch_eq_recording server (s, log) batch,
    ?_, ?_, ?_⟩
  · exact ⟨ne_nil_of_mem_chunks (max size 1) hc, length_le_of_mem_chunks hsize hc⟩
  · exact length_of_mem_dropLast_chunks hsize hc
  · rintro rfl
    exact ⟨rfl, rfl⟩
  · intro e s₁ hrows hprepare
    have hrun : run = _ :=
      executeBatch_refused server.recording hrows (prepare_recording server hprepare log)
    rw [hrun]
    exact ⟨rfl, rfl⟩
  · intro s₁ hrows hprepare
    have hrun : run = _ :=
      executeBatch_prepared server.recording hrows (prepare_recording server hprepare log)
    obtain ⟨results, sent, s₂, hanswers⟩ := Answers.exists_answers server s₁ rows
    refine ⟨results, sent, s₂, hanswers, ?_⟩
    have hchunks : server.Answers s₁ batch.chunks.flatten results sent s₂ := by rwa [hflatten]
    rcases runGroups_recording hjoin hchunks log with
      ⟨counts, rfl, hgroups⟩ | ⟨e, sent₁, s₃, he, hfails, hgroups⟩
    · have hlength := hanswers.length_eq
      rw [List.length_map] at hlength
      rw [hrun, hgroups]
      refine ⟨fun hok => ⟨hanswers.forall_sent hok, counts, hlength, rfl, rfl, rfl⟩, ?_⟩
      rintro ⟨e, he⟩
      exact absurd he (error_not_mem_map_ok counts e)
    · rw [hrun, hgroups]
      exact ⟨fun hok => absurd he (hok e), fun _ => ⟨e, sent₁, s₃, hfails, rfl, rfl⟩⟩

/-- Five rows in groups of two: the third fails, the fourth is sent with it, the fifth is not. -/
theorem executeBatch_of_five_rows :
    let start : Script := ⟨none, [⟨[], .ok 1⟩, ⟨[], .ok 1⟩, ⟨[], .error ⟨"23505", "twice", none⟩⟩],
      [], []⟩
    let taken := (Script.server.prepare start "select 1").2
    let batch := BatchStatement.of "select 1" [[], [], [], [], []] 2
    let run := Script.server.recording.executeBatch (start, []) batch
    (run.result, run.state.2) =
        (.error (.uniqueViolation "unknown: twice"), [[], [], [], []]) ∧
      Script.server.join.InOrder ∧ ∃ s, Script.server.FailsWith taken batch.chunks
        (.uniqueViolation "unknown: twice") [[], [], [], []] s := by
  intro start taken batch run
  have hrun : (run.result, run.state.2) =
      (.error (.uniqueViolation "unknown: twice"), [[], [], [], []]) := by decide +kernel
  obtain ⟨hresult, hsent⟩ := Prod.mk.inj hrun
  obtain ⟨-, -, -, -, hprepared⟩ := executeBatch_of Script.server Joiner.prompt_inOrder start []
    "select 1" [[], [], [], [], []] 2
  obtain ⟨results, sent, s₂, -, hok, hfailed⟩ := hprepared taken (List.cons_ne_nil _ _) rfl
  refine ⟨hrun, Joiner.prompt_inOrder, ?_⟩
  by_cases hfails : ∃ e, .error e ∈ results
  · obtain ⟨e, sent₁, s₃, hwith, he, hstate⟩ := hfailed hfails
    cases hresult.symm.trans he
    cases hsent.symm.trans (congrArg Prod.snd hstate)
    exact ⟨s₃, hwith⟩
  · obtain ⟨-, counts, -, -, hcounts, -⟩ := hok fun e he => hfails ⟨e, he⟩
    cases hresult.symm.trans hcounts

end Server

end SqlCompose
