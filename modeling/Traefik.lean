import Traefik.Go
import Traefik.UsersFile
import Traefik.Users
import Traefik.UsersFormat
import Traefik.Header
import Traefik.Authenticator
import Traefik.ServeHTTP
