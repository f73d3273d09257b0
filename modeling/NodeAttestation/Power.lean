/-!
Powers are those of the natural numbers and of the integers, also where those of a monoid are at
hand, so that a definition means the same wherever it is read.
-/

attribute [default_instance 20000, instance (20000)] instPowNat
