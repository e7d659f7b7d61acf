import NumberConcepts.Belief.Posterior
/-!
# Posteriors as records

A posterior as a list of records, the most probable candidate first.
-/

namespace NumberConcepts

variable {size : Nat}

/-- The fields of a candidate at a rank. -/
def Ranked.fields (rank : Nat) (entry : Ranked Float size) : Fields :=
  [("rank", .int rank), ("concept", .text entry.hypothesis.key),
    ("type", .text entry.hypothesis.concept.tag.name), ("size", .int entry.hypothesis.count),
    ("probability", .float entry.probability), ("log_prior", .float entry.logPrior),
    ("log_likelihood", .float entry.logLikelihood)]

namespace Posterior

variable (posterior : Posterior Float size)

/-- The records of all candidates. -/
def records : List Fields := posterior.entries.mapIdx fun index entry => entry.fields (index + 1)

/-- The written forms of all candidates with their probabilities. -/
def pairs : List (String × Float) :=
  posterior.entries.map fun entry => (entry.hypothesis.key, entry.probability)

end Posterior

end NumberConcepts
