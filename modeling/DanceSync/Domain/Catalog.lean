import DanceSync.Model.Room

/-!
# Catalogues

The songs, the phrases of the song challenge and the words of the word race that the services
use unless they are given others (`src/domain/catalog`).
-/

namespace DanceSync

/-- Songs the chooser can pick from. -/
def SONG_CATALOG : List Song :=
  [{ id := js "song-1", title := js "Rasputin", artist := js "Boney M.",
     durationSeconds := 90, youtubeId := js "flS0SVqTGT0" },
   { id := js "song-2", title := js "Happy", artist := js "Pharrell Williams",
     durationSeconds := 90, youtubeId := js "t1arWxAn3VI" },
   { id := js "song-3", title := js "Uptown Funk", artist := js "Mark Ronson ft. Bruno Mars",
     durationSeconds := 90, youtubeId := js "4LUct4rqPGE" },
   { id := js "song-4", title := js "Dynamite", artist := js "Taio Cruz",
     durationSeconds := 90, youtubeId := js "8sEGKP8i-Ps" },
   { id := js "song-5", title := js "Hot N Cold", artist := js "Katy Perry",
     durationSeconds := 90, youtubeId := js "UUeiSHQ8dSM" },
   { id := js "song-6", title := js "Cotton Eye Joe", artist := js "Rednex",
     durationSeconds := 90, youtubeId := js "CicMt6tQqEQ" }]

/-- Phrases of the song challenge. -/
def SONG_CHALLENGE_PHRASES : List JsString :=
  ["ritmo", "baila conmigo", "paso a paso", "a mover los pies", "sigue la musica",
   "dale play", "pista de baile", "noche de fiesta", "coreografia", "que suene el bajo",
   "manos arriba", "vuelta y media"].map js

/-- Words of the word race. -/
def WORD_RACE_WORDS : List JsString :=
  ["ritmo", "salsa", "tambor", "giro", "paso", "fiesta", "bajo", "conga", "pista",
   "baile", "cumbia", "merengue", "tango", "vuelta", "palmas", "musica", "compas",
   "salto", "pulso", "danza", "clave", "bongo", "flow", "estilo", "brillo"].map js

end DanceSync
