import Synqro.Effects

/-!
# Runs of the public API

`ApiRun` is a sequence of calls on one initialised engine, each with the world it found and what
became of it. Between calls the outside may change the disk, the process, the clock and the
server's answers in any way; only the record of what the engine did stays.
-/

namespace Synqro

/-- The calls that update and roll back. -/
inductive ApiCall where
  | checkUpdate
  | applyUpdate
  | rollback
deriving DecidableEq

/-- What a call does. -/
def ApiCall.run (E : Externals) (engine : SynqroEngine) : ApiCall → M Unit
  | .checkUpdate => synqroCheckUpdate E (some engine)
  | .applyUpdate => synqroApplyUpdate E (some engine)
  | .rollback => synqroRollback E (some engine)

/-- A call that was made. -/
structure CallRecord where
  call : ApiCall
  before : World
  result : EStateM.Result SynqroError World Unit

namespace CallRecord

/-- The world after the call. -/
def after (r : CallRecord) : World := Comp.final r.result

/-- What the outside saw the call do. -/
def effects (r : CallRecord) : List Effect := r.after.trace.drop r.before.trace.length

end CallRecord

/-- A run of calls of the kinds in `calls`. -/
inductive ApiRun (E : Externals) (engine : SynqroEngine) (calls : ApiCall → Prop) :
    List CallRecord → World → Prop
  | start {w : World} : w.trace = [] → ApiRun E engine calls [] w
  | outside {rs : List CallRecord} {w w' : World} : ApiRun E engine calls rs w →
      w'.trace = w.trace → ApiRun E engine calls rs w'
  | call {rs : List CallRecord} {w : World} (c : ApiCall) : calls c → ApiRun E engine calls rs w →
      ApiRun E engine calls (rs ++ [⟨c, w, c.run E engine w⟩]) (Comp.after (c.run E engine) w)

/-- Every record of a run is of a call of its kinds and holds what the call did. -/
theorem ApiRun.of_mem {E : Externals} {engine : SynqroEngine} {calls : ApiCall → Prop}
    {rs : List CallRecord} {w : World} (h : ApiRun E engine calls rs w) {r : CallRecord}
    (hr : r ∈ rs) : calls r.call ∧ r.result = r.call.run E engine r.before := by
  induction h with
  | start => cases hr
  | outside _ _ ih => exact ih hr
  | call c hc _ ih =>
    rcases List.mem_append.1 hr with hr | hr
    · exact ih hr
    · rw [List.mem_singleton.1 hr]
      exact ⟨hc, rfl⟩

end Synqro
